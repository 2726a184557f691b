import SecureShare.Library.JsonString

/-!
# JSON values

A JSON text as a tree. Strings are sequences of UTF-16 code units, as an escape can write half
of a surrogate pair. The type of the numbers is left open: a literal, a rational or what some
machine makes of it. What is written for a tree is read back, and two spellings of the same
strings are read as the same tree.
-/
namespace SecureShare.Library.Json

/-- A string of UTF-16 code units. -/
abbrev Units := List UInt16

def charUnits (c : Char) : Units :=
  if c.toNat < 0x10000 then [UInt16.ofNat c.toNat]
  else [UInt16.ofNat (0xD800 + (c.toNat - 0x10000) / 0x400),
    UInt16.ofNat (0xDC00 + (c.toNat - 0x10000) % 0x400)]

def Part.units : Part → Units
  | .plain c _ => charUnits c
  | .short c _ => charUnits (unescape c)
  | .hex a b c d _ => [UInt16.ofNat (codeUnit a b c d)]

/-- The units between the quotes of a literal. -/
def unitsOf (ps : List Part) : Units := ps.flatMap Part.units

/-- A character as a serialiser writes it that escapes only where it has to. -/
def quoteChar (c : Char) : Part :=
  if h : isPlain c = true then .plain c h else encodeChar c

/-- Half of a pair on its own is escaped. -/
def quoteUnit (u : UInt16) : Part :=
  if isHighSurrogate u.toNat || isLowSurrogate u.toNat then hexPart u.toNat
  else quoteChar (Char.ofNat u.toNat)

/-- The literal for a string. -/
@[grind =] def quote : Units → List Part
  | [] => []
  | [u] => [quoteUnit u]
  | u :: l :: us =>
    if isHighSurrogate u.toNat && isLowSurrogate l.toNat then
      quoteChar (surrogatePair u.toNat l.toNat) :: quote us
    else quoteUnit u :: quote (l :: us)

theorem units_hexPart {n : ℕ} (h : n < 65536) : (hexPart n).units = [UInt16.ofNat n] := by
  rw [hexPart, Part.units, codeUnit_hexDigit h]

theorem charUnits_of_lt {c : Char} (h : c.toNat < 65536) : charUnits c = [UInt16.ofNat c.toNat] :=
  if_pos h

theorem units_quoteChar (c : Char) : (quoteChar c).units = charUnits c := by
  unfold quoteChar encodeChar
  split_ifs with hplain hquote hslash hb hf hn hr ht
  · rfl
  all_goals first
    | subst c; rfl
    | skip
  have hlt : c.toNat < 65536 := by
    have hcontrol : ¬( ' ' ≤ c) := by
      simpa [isPlain, hquote, hslash] using hplain
    have : ¬32 ≤ c.toNat := hcontrol
    omega
  rw [units_hexPart hlt, charUnits_of_lt hlt]

theorem units_escapeHTML (p : Part) : p.escapeHTML.units = p.units := by
  cases p with
  | plain c h =>
      rw [Part.escapeHTML]
      split_ifs with hc
      · have hlt : c.toNat < 65536 := by
          simp only [isUnsafe, Bool.or_eq_true, beq_iff_eq] at hc
          rcases hc with (((rfl | rfl) | rfl) | rfl) | rfl <;> decide
        rw [units_hexPart hlt, Part.units, charUnits_of_lt hlt]
      · rfl
  | _ => rfl

private theorem toNat_ofNat {n : ℕ} (h : n.isValidChar) : (Char.ofNat n).toNat = n := by
  rw [Char.ofNat, dif_pos h]
  rfl

theorem units_quoteUnit (u : UInt16) : (quoteUnit u).units = [u] := by
  have hlt : u.toNat < 65536 := u.toNat_lt
  unfold quoteUnit
  split_ifs with hsurrogate
  · rw [units_hexPart hlt, UInt16.ofNat_toNat]
  · have hvalid : u.toNat.isValidChar := by
      simp only [isHighSurrogate, isLowSurrogate, Bool.or_eq_true, Bool.and_eq_true,
        decide_eq_true_eq] at hsurrogate
      unfold Nat.isValidChar
      omega
    have htoNat := toNat_ofNat hvalid
    rw [units_quoteChar, charUnits_of_lt (htoNat.symm ▸ hlt), htoNat, UInt16.ofNat_toNat]

theorem charUnits_surrogatePair {u l : UInt16} (hu : isHighSurrogate u.toNat = true)
    (hl : isLowSurrogate l.toNat = true) : charUnits (surrogatePair u.toNat l.toNat) = [u, l] := by
  simp only [isHighSurrogate, isLowSurrogate, Bool.and_eq_true, decide_eq_true_eq] at hu hl
  have hvalid : (0x10000 + 0x400 * (u.toNat - 0xD800) + (l.toNat - 0xDC00)).isValidChar := by
    unfold Nat.isValidChar
    omega
  have htoNat := toNat_ofNat hvalid
  have hhigh : 0xD800 + (0x10000 + 0x400 * (u.toNat - 0xD800) + (l.toNat - 0xDC00) - 0x10000) /
      0x400 = u.toNat := by omega
  have hlow : 0xDC00 + (0x10000 + 0x400 * (u.toNat - 0xD800) + (l.toNat - 0xDC00) - 0x10000) %
      0x400 = l.toNat := by omega
  rw [charUnits, surrogatePair, htoNat, if_neg (by omega), hhigh, hlow, UInt16.ofNat_toNat,
    UInt16.ofNat_toNat]

/-- A quoted string is read back. -/
theorem unitsOf_quote (us : Units) : unitsOf (quote us) = us := by
  induction us using quote.induct with
  | case1 => rfl
  | case2 u =>
      rw [quote, unitsOf, List.flatMap_cons, units_quoteUnit]
      rfl
  | case3 u l us hpair ih =>
      have hboth := Bool.and_eq_true_iff.mp hpair
      rw [quote, if_pos hpair, unitsOf, List.flatMap_cons, units_quoteChar,
        charUnits_surrogatePair hboth.1 hboth.2]
      exact congrArg ([u, l] ++ ·) ih
  | case4 u l us hpair ih =>
      rw [quote, if_neg hpair, unitsOf, List.flatMap_cons, units_quoteUnit]
      exact congrArg ([u] ++ ·) ih

/-- The escapes for HTML do not change a string. -/
theorem unitsOf_escapeHTML (ps : List Part) : unitsOf (ps.map Part.escapeHTML) = unitsOf ps := by
  rw [unitsOf, unitsOf, List.flatMap_map]
  exact List.flatMap_congr fun p _ => units_escapeHTML p

/-- A JSON value; the members of an object are in the order of the text. -/
inductive Document (ν : Type) where
  | null
  | bool (b : Bool)
  | number (n : ν)
  | string (s : Units)
  | array (vs : List (Document ν))
  | object (ms : List (Units × Document ν))

/-- What to do with each kind of value. -/
structure Algebra (ν β : Type) where
  null : β
  bool : Bool → β
  number : ν → β
  string : Units → β
  array : List β → β
  object : List (Units × β) → β

variable {ν β : Type}

namespace Document

mutual

/-- The algebra, from the leaves to the root. -/
def fold (a : Algebra ν β) : Document ν → β
  | .null => a.null
  | .bool b => a.bool b
  | .number n => a.number n
  | .string s => a.string s
  | .array vs => a.array (foldElements a vs)
  | .object ms => a.object (foldMembers a ms)

def foldElements (a : Algebra ν β) : List (Document ν) → List β
  | [] => []
  | v :: vs => fold a v :: foldElements a vs

def foldMembers (a : Algebra ν β) : List (Units × Document ν) → List (Units × β)
  | [] => []
  | (k, v) :: ms => (k, fold a v) :: foldMembers a ms

end

variable {a : Algebra ν β}

theorem fold_array (vs : List (Document ν)) : fold a (.array vs) = a.array (vs.map (fold a)) := by
  have h : foldElements a vs = vs.map (fold a) := by
    induction vs with
    | nil => rfl
    | cons v vs ih => rw [foldElements, ih, List.map_cons]
  rw [fold, h]

theorem fold_object (ms : List (Units × Document ν)) :
    fold a (.object ms) = a.object (ms.map fun m => (m.1, fold a m.2)) := by
  have h : foldMembers a ms = ms.map fun m => (m.1, fold a m.2) := by
    induction ms with
    | nil => rfl
    | cons m ms ih => rw [foldMembers, ih, List.map_cons]
  rw [fold, h]

/-- Induction with one hypothesis for each element and for the value of each member. -/
@[induction_eliminator] theorem induct {motive : Document ν → Prop} (null : motive .null) (bool : ∀ b, motive (.bool b))
    (number : ∀ n, motive (.number n)) (string : ∀ s, motive (.string s))
    (array : ∀ vs, (∀ v ∈ vs, motive v) → motive (.array vs))
    (object : ∀ ms, (∀ m ∈ ms, motive m.2) → motive (.object ms)) (v : Document ν) : motive v :=
  @Document.rec ν motive (fun vs => ∀ v ∈ vs, motive v) (fun ms => ∀ m ∈ ms, motive m.2)
    (fun m => motive m.2) null bool number string (fun vs ih => array vs ih) (fun ms ih => object ms ih)
    (fun _ hv => absurd hv List.not_mem_nil)
    (fun _ _ hv hvs => List.forall_mem_cons.mpr ⟨hv, hvs⟩)
    (fun _ hm => absurd hm List.not_mem_nil)
    (fun _ _ hm hms => List.forall_mem_cons.mpr ⟨hm, hms⟩)
    (fun _ _ hv => hv) v

end Document

/-- Tokens without white space. -/
def writeAlgebra : Algebra Number (List Token) where
  null := [.null]
  bool b := [.bool b]
  number n := [.number n]
  string s := [.string (quote s)]
  array := arrayTokens
  object ms := objectTokens (ms.map fun m => (quote m.1, m.2))

def Document.write : Document Number → List Token := Document.fold writeAlgebra

section reader
variable {α : Type}

/-- Items up to the closing bracket, at least one and at most `n`. -/
@[grind =] def readItems (item : List Token → Option (α × List Token)) (close : Token) :
    ℕ → List Token → Option (List α × List Token)
  | 0, _ => none
  | n + 1, ts =>
    (item ts).bind fun r =>
      if r.2.head? = some close then some ([r.1], r.2.tail)
      else if r.2.head? = some .comma then
        (readItems item close n r.2.tail).map fun s => (r.1 :: s.1, s.2)
      else none

def readList (item : List Token → Option (α × List Token)) (close : Token) (ts : List Token) :
    Option (List α × List Token) :=
  if ts.head? = some close then some ([], ts.tail) else readItems item close ts.length ts

def readMember (value : List Token → Option (α × List Token)) :
    List Token → Option ((Units × α) × List Token)
  | .string k :: .colon :: ts => (value ts).map fun r => ((unitsOf k, r.1), r.2)
  | _ => none

/-- A value at the front of the tokens; each nested bracket takes one unit of fuel. -/
@[grind =] def readValue : ℕ → List Token → Option (Document Number × List Token)
  | 0, _ => none
  | _, [] => none
  | fuel + 1, t :: ts =>
    match t with
    | .null => some (.null, ts)
    | .bool b => some (.bool b, ts)
    | .number n => some (.number n, ts)
    | .string ps => some (.string (unitsOf ps), ts)
    | .beginArray => (readList (readValue fuel) .endArray ts).map fun r => (.array r.1, r.2)
    | .beginObject =>
      (readList (readMember (readValue fuel)) .endObject ts).map fun r => (.object r.1, r.2)
    | _ => none

/-- The value that the tokens are, with nothing behind it. -/
def readTokens (ts : List Token) : Option (Document Number) :=
  (readValue ts.length ts).bind fun r => if r.2 = [] then some r.1 else none

/-- The value of a text. -/
def parse (s : Text) : Option (Document Number) :=
  (lex s).bind fun ls => readTokens (ls.map Lexeme.token)

variable {item : List Token → Option (α × List Token)} {close : Token} {spell : α → List Token}
  {xs : List α}

theorem readItems_joinCommas (hclose : close ≠ .comma) (hxs : xs ≠ [])
    (hitem : ∀ x ∈ xs, ∀ rest, item (spell x ++ rest) = some (x, rest)) {n : ℕ}
    (hn : xs.length ≤ n) (rest : List Token) :
    readItems item close n (joinCommas (xs.map spell) ++ close :: rest) = some (xs, rest) := by
  induction xs generalizing n with
  | nil => exact absurd rfl hxs
  | cons x xs ih =>
      obtain ⟨n, rfl⟩ := Nat.exists_eq_succ_of_ne_zero (Nat.ne_zero_of_lt hn)
      have hx := hitem x List.mem_cons_self
      cases xs with
      | nil =>
          rw [List.map_cons, List.map_nil, joinCommas, readItems, hx, Option.bind_some,
            List.head?_cons, if_pos rfl]
          rfl
      | cons y ys =>
          have hrest := ih (List.cons_ne_nil y ys) (fun z hz => hitem z (List.mem_cons_of_mem x hz))
            (Nat.le_of_succ_le_succ hn)
          have hcomma : (some Token.comma = some close) ↔ False := by
            simpa using hclose.symm
          rw [List.map_cons, List.map_cons, joinCommas, ← List.map_cons, List.append_assoc,
            List.cons_append, readItems, hx, Option.bind_some, List.head?_cons, if_neg hcomma.mp,
            if_pos rfl, List.tail_cons, hrest]
          · rfl
          · exact List.cons_ne_nil _ _

theorem head?_joinCommas {v : List Token} (hv : v ≠ []) (vs : List (List Token)) :
    (joinCommas (v :: vs)).head? = v.head? := by
  obtain ⟨t, ts, rfl⟩ := List.exists_cons_of_ne_nil hv
  cases vs with
  | nil => rfl
  | cons w ws =>
      rw [joinCommas]
      · rfl
      · exact List.cons_ne_nil w ws

theorem length_le_length_joinCommas {vs : List (List Token)} (h : ∀ v ∈ vs, v ≠ []) :
    vs.length ≤ (joinCommas vs).length := by
  induction vs with
  | nil => exact Nat.zero_le _
  | cons v vs ih =>
      obtain ⟨hv, hvs⟩ := List.forall_mem_cons.mp h
      have hpos := List.length_pos_iff.mpr hv
      cases vs with
      | nil => exact hpos
      | cons w ws =>
          have := ih hvs
          rw [joinCommas]
          · simp only [List.length_append, List.length_cons] at this ⊢
            omega
          · exact List.cons_ne_nil w ws

/-- No element is longer than the list with its commas. -/
theorem length_le_of_mem {v : List Token} {vs : List (List Token)} (h : v ∈ vs) :
    v.length ≤ (joinCommas vs).length := by
  induction vs with
  | nil => cases h
  | cons w vs ih =>
      cases vs with
      | nil => rw [List.mem_singleton.mp h, joinCommas]
      | cons u us =>
          rw [joinCommas, List.length_append, List.length_cons]
          · rcases List.mem_cons.mp h with rfl | h
            · omega
            · have := ih h
              omega
          · exact List.cons_ne_nil u us

/-- A written list of items is read back. -/
theorem readList_joinCommas (hclose : close ≠ .comma)
    (hitem : ∀ x ∈ xs, ∀ rest, item (spell x ++ rest) = some (x, rest))
    (hhead : ∀ x ∈ xs, ∃ t ts, spell x = t :: ts ∧ t ≠ close) (rest : List Token) :
    readList item close (joinCommas (xs.map spell) ++ close :: rest) = some (xs, rest) := by
  rcases eq_or_ne xs [] with rfl | hxs
  · rw [readList, List.map_nil, joinCommas, List.nil_append, List.head?_cons, if_pos rfl]
    rfl
  · obtain ⟨x, xs, rfl⟩ := List.exists_cons_of_ne_nil hxs
    have hne : ∀ v ∈ (x :: xs).map spell, v ≠ [] := by
      intro v hv
      obtain ⟨y, hy, rfl⟩ := List.mem_map.mp hv
      obtain ⟨t, ts, ht, _⟩ := hhead y hy
      exact ht ▸ List.cons_ne_nil t ts
    obtain ⟨t, ts, ht, hclosed⟩ := hhead x List.mem_cons_self
    have hfirst : (joinCommas ((x :: xs).map spell) ++ close :: rest).head? = some t := by
      have := head?_joinCommas (hne _ List.mem_cons_self) (xs.map spell)
      rw [List.head?_append, List.map_cons, this, ht]
      rfl
    have hlength := length_le_length_joinCommas hne
    rw [List.length_map] at hlength
    rw [readList, hfirst, if_neg (by simpa using hclosed)]
    exact readItems_joinCommas hclose hxs hitem (by rw [List.length_append]; omega) rest

/-- Every written value begins with a token that closes nothing. -/
theorem write_eq_cons (v : Document Number) :
    ∃ t ts, v.write = t :: ts ∧ t ≠ .endArray ∧ t ≠ .endObject := by
  cases v with
  | array vs =>
      exact ⟨_, _, Document.fold_array vs, by simp, by simp⟩
  | object ms =>
      exact ⟨_, _, Document.fold_object ms, by simp, by simp⟩
  | _ => exact ⟨_, _, rfl, by simp, by simp⟩

theorem write_array (vs : List (Document Number)) :
    (Document.array vs).write = .beginArray :: (joinCommas (vs.map Document.write) ++ [.endArray]) :=
  Document.fold_array vs

theorem write_object (ms : List (Units × Document Number)) : (Document.object ms).write =
    .beginObject :: (joinCommas (ms.map fun m => memberTokens (quote m.1, m.2.write)) ++
      [.endObject]) := by
  have h : (Document.object ms).write = objectTokens
      ((ms.map fun m => (m.1, m.2.write)).map fun m => (quote m.1, m.2)) := Document.fold_object ms
  rw [h, objectTokens, List.map_map, List.map_map]
  rfl

/-- A written value is read back, whatever follows it. -/
theorem readValue_write (v : Document Number) {fuel : ℕ} (hfuel : v.write.length ≤ fuel)
    (rest : List Token) : readValue fuel (v.write ++ rest) = some (v, rest) := by
  induction v generalizing fuel rest with
  | null | bool | number =>
      obtain ⟨fuel, rfl⟩ := Nat.exists_eq_succ_of_ne_zero (Nat.ne_zero_of_lt hfuel)
      rfl
  | string s =>
      obtain ⟨fuel, rfl⟩ := Nat.exists_eq_succ_of_ne_zero (Nat.ne_zero_of_lt hfuel)
      have h : (Document.string s).write = [.string (quote s)] := rfl
      rw [h, List.cons_append, readValue, unitsOf_quote]
      rfl
  | array vs ih =>
      rw [write_array] at hfuel ⊢
      obtain ⟨fuel, rfl⟩ := Nat.exists_eq_succ_of_ne_zero (Nat.ne_zero_of_lt hfuel)
      have hitem : ∀ v ∈ vs, ∀ rest, readValue fuel (v.write ++ rest) = some (v, rest) := by
        intro v hv rest
        have := length_le_of_mem (List.mem_map_of_mem (f := Document.write) hv)
        simp only [List.length_cons, List.length_append, List.length_nil] at hfuel
        exact ih v hv (by omega) rest
      have hclose : Token.endArray ≠ .comma := by decide
      have hlist : readList (readValue fuel) .endArray
          (joinCommas (vs.map Document.write) ++ .endArray :: rest) = some (vs, rest) :=
        readList_joinCommas hclose hitem (fun v _ => by
          obtain ⟨t, ts, ht, hne, _⟩ := write_eq_cons v
          exact ⟨t, ts, ht, hne⟩) rest
      rw [List.cons_append, List.append_assoc, List.singleton_append, readValue]
      simp only [hlist, Option.map_some]
  | object ms ih =>
      rw [write_object] at hfuel ⊢
      obtain ⟨fuel, rfl⟩ := Nat.exists_eq_succ_of_ne_zero (Nat.ne_zero_of_lt hfuel)
      have hitem : ∀ m ∈ ms, ∀ rest, readMember (readValue fuel)
          (memberTokens (quote m.1, m.2.write) ++ rest) = some (m, rest) := by
        intro m hm rest
        have := length_le_of_mem
          (List.mem_map_of_mem (f := fun m => memberTokens (quote m.1, m.2.write)) hm)
        simp only [List.length_cons, List.length_append, List.length_nil, memberTokens] at hfuel this
        rw [memberTokens, List.cons_append, List.cons_append, readMember, ih m hm (by omega) rest,
          unitsOf_quote]
        rfl
      have hclose : Token.endObject ≠ .comma := by decide
      have hlist : readList (readMember (readValue fuel)) .endObject
          (joinCommas (ms.map fun m => memberTokens (quote m.1, m.2.write)) ++ .endObject :: rest) =
            some (ms, rest) :=
        readList_joinCommas hclose hitem (fun m _ => ⟨_, _, rfl, fun h => by cases h⟩) rest
      rw [List.cons_append, List.append_assoc, List.singleton_append, readValue]
      simp only [hlist, Option.map_some]

theorem exists_limit {f : α → List Token} (h : ∀ x ∈ xs, ∃ limit, IsValue limit (f x)) :
    ∃ limit, ∀ x ∈ xs, IsValue limit (f x) := by
  induction xs with
  | nil => exact ⟨0, fun x hx => absurd hx List.not_mem_nil⟩
  | cons x xs ih =>
      obtain ⟨⟨m, hm⟩, hxs⟩ := List.forall_mem_cons.mp h
      obtain ⟨n, hn⟩ := ih hxs
      exact ⟨max m n, List.forall_mem_cons.mpr
        ⟨hm.mono (le_max_left m n), fun y hy => (hn y hy).mono (le_max_right m n)⟩⟩

/-- Written tokens are one value. -/
theorem exists_isValue_write (v : Document Number) : ∃ limit, IsValue limit v.write := by
  induction v with
  | null | bool | number | string => exact ⟨0, rfl⟩
  | array vs ih =>
      obtain ⟨limit, hlimit⟩ := exists_limit ih
      refine ⟨limit + 1, write_array vs ▸ IsValue.array fun w hw => ?_⟩
      obtain ⟨v, hv, rfl⟩ := List.mem_map.mp hw
      exact hlimit v hv
  | object ms ih =>
      obtain ⟨limit, hlimit⟩ := exists_limit (f := fun m : Units × Document Number => m.2.write) ih
      have hobject : (Document.object ms).write =
          objectTokens (ms.map fun m => (quote m.1, m.2.write)) := by
        rw [write_object, objectTokens, List.map_map]
        rfl
      refine ⟨limit + 1, hobject ▸ IsValue.object fun w hw => ?_⟩
      obtain ⟨m, hm, rfl⟩ := List.mem_map.mp hw
      exact hlimit m hm

theorem separated_write (v : Document Number) : Separated v.write := by
  obtain ⟨limit, h⟩ := exists_isValue_write v
  exact h.separated

theorem readTokens_write (v : Document Number) : readTokens v.write = some v := by
  have h := readValue_write v le_rfl []
  rw [List.append_nil] at h
  rw [readTokens, h]
  rfl

/-- A spelling that the reader does not see. -/
def Unseen (e : Token → Token) : Prop :=
  (∀ t : Token, (∀ ps, t ≠ .string ps) → e t = t) ∧
    ∀ ps, ∃ qs, e (.string ps) = .string qs ∧ unitsOf qs = unitsOf ps

theorem unseen_escapeHTML : Unseen Token.escapeHTML := by
  constructor
  · intro t ht
    cases t with
    | string ps => exact absurd rfl (ht ps)
    | _ => rfl
  · exact fun ps => ⟨ps.map Part.escapeHTML, rfl, unitsOf_escapeHTML ps⟩

variable {e : Token → Token} {ts : List Token}

theorem Unseen.head?_map (h : Unseen e) {t : Token} (ht : t.isPunctuation = true) :
    (ts.map e).head? = some t ↔ ts.head? = some t := by
  cases ts with
  | nil => exact Iff.rfl
  | cons u us =>
      rw [List.map_cons, List.head?_cons, List.head?_cons, Option.some.injEq, Option.some.injEq]
      cases u with
      | string ps =>
          obtain ⟨qs, hqs, _⟩ := h.2 ps
          rw [hqs]
          constructor <;> (rintro rfl; cases ht)
      | _ => rw [h.1 _ fun ps hps => by cases hps]

/-- The reader goes on behind what it read in the same way. -/
def Commutes (e : Token → Token) (item : List Token → Option (α × List Token)) : Prop :=
  ∀ ts, item (ts.map e) = (item ts).map fun r => (r.1, r.2.map e)

theorem Commutes.readItems (h : Commutes e item) (he : Unseen e)
    (hclose : close.isPunctuation = true) (n : ℕ) : Commutes e (readItems item close n) := by
  induction n with
  | zero => exact fun ts => rfl
  | succ n ih =>
      intro ts
      simp only [Json.readItems, h ts]
      cases item ts with
      | none => rfl
      | some r =>
          simp only [Option.map_some, Option.bind_some, he.head?_map hclose,
            he.head?_map (t := .comma) rfl]
          split_ifs
          · rw [Option.map_some, List.map_tail]
          · rw [← List.map_tail, ih r.2.tail, Option.map_map, Option.map_map]
            rfl
          · rfl

theorem Commutes.readList (h : Commutes e item) (he : Unseen e)
    (hclose : close.isPunctuation = true) : Commutes e (readList item close) := by
  intro ts
  simp only [Json.readList, he.head?_map hclose, List.length_map]
  split_ifs
  · rw [Option.map_some, List.map_tail]
  · exact h.readItems he hclose _ ts

theorem Commutes.readMember (h : Commutes e item) (he : Unseen e) :
    Commutes e (readMember item) := by
  intro ts
  cases ts with
  | nil => rfl
  | cons t ts =>
      cases t with
      | string ps =>
          obtain ⟨qs, hqs, hunits⟩ := he.2 ps
          cases ts with
          | nil =>
              rw [List.map_cons, hqs]
              rfl
          | cons u us =>
              cases u with
              | colon =>
                  have hcolon : e .colon = .colon := he.1 _ fun ps hps => by cases hps
                  rw [List.map_cons, List.map_cons, hqs, hcolon, Json.readMember, Json.readMember,
                    h us, hunits, Option.map_map, Option.map_map]
                  rfl
              | string ps' =>
                  obtain ⟨qs', hqs', _⟩ := he.2 ps'
                  rw [List.map_cons, List.map_cons, hqs, hqs']
                  rfl
              | _ =>
                  rw [List.map_cons, List.map_cons, hqs, he.1 _ fun ps hps => by cases hps]
                  rfl
      | _ =>
          rw [List.map_cons, he.1 _ fun ps hps => by cases hps]
          rfl

theorem commutes_readValue (he : Unseen e) (fuel : ℕ) : Commutes e (readValue fuel) := by
  induction fuel with
  | zero => exact fun ts => rfl
  | succ fuel ih =>
      intro ts
      cases ts with
      | nil => rfl
      | cons t ts =>
          cases t with
          | string ps =>
              obtain ⟨qs, hqs, hunits⟩ := he.2 ps
              rw [List.map_cons, hqs, readValue, readValue, hunits]
              rfl
          | beginArray =>
              have hlist : readList (readValue fuel) .endArray (ts.map e) = _ :=
                ih.readList he rfl ts
              rw [List.map_cons, he.1 _ (fun ps hps => by cases hps), readValue, readValue]
              simp only [hlist, Option.map_map]
              rfl
          | beginObject =>
              have hlist : readList (readMember (readValue fuel)) .endObject (ts.map e) = _ :=
                (ih.readMember he).readList he rfl ts
              rw [List.map_cons, he.1 _ (fun ps hps => by cases hps), readValue, readValue]
              simp only [hlist, Option.map_map]
              rfl
          | _ =>
              rw [List.map_cons, he.1 _ fun ps hps => by cases hps]
              rfl

/-- The spelling of its strings does not change a value. -/
theorem readTokens_map (he : Unseen e) (ts : List Token) :
    readTokens (ts.map e) = readTokens ts := by
  rw [readTokens, readTokens, List.length_map, commutes_readValue he ts.length ts,
    Option.bind_map]
  refine Option.bind_congr fun r _ => ?_
  simp only [Function.comp_apply, List.map_eq_nil_iff]

/-- White space does not change a value. -/
theorem parse_spacedText {ls : List Lexeme} {w : Text}
    (hspace : ∀ l ∈ ls, ∀ c ∈ l.space, isSpace c = true) (hw : ∀ c ∈ w, isSpace c = true)
    (h : Separated (ls.map Lexeme.token)) :
    parse (spacedText ls ++ w) = readTokens (ls.map Lexeme.token) := by
  rw [parse, lex_spacedText_append hspace hw h, Option.bind_some]

/-- The compact text of a value is read back. -/
theorem parse_textOf_write (v : Document Number) : parse (textOf v.write) = some v := by
  have hspace : ∀ l ∈ compacted v.write, ∀ c ∈ l.space, isSpace c = true := by simp [compacted]
  have h := parse_spacedText (w := []) hspace (by simp)
    ((map_token_compacted v.write).symm ▸ separated_write v)
  rw [List.append_nil, ← textOf_eq_spacedText, map_token_compacted, readTokens_write] at h
  exact h

end reader
end SecureShare.Library.Json
