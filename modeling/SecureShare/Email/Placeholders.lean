import SecureShare.Email.Template
import SecureShare.Library.Occurrences
import SecureShare.Library.Segments

/-!
# Placeholders

`renderPlaceholders` goes over the template three times: to check the names, to remove the
placeholders and look for braces that are left, and to put in the values. A placeholder
cannot be read in two ways, so the three passes find the same occurrences. They are those of
the template alone: what a value holds is not looked at.
-/
namespace SecureShare.Email
open Go Library.Occurrences

/-- What `placeholderPattern` matches as a whole, and the name that it captures. -/
def IsPlaceholder (matched name : Text) : Prop :=
  ∃ before after : Text, matched = '{' :: '{' :: (before ++ (name ++ (after ++ ['}', '}']))) ∧
    (∀ c ∈ before, isPatternSpace c = true) ∧ name ≠ [] ∧ (∀ c ∈ name, isWordRune c = true) ∧
      ∀ c ∈ after, isPatternSpace c = true

variable {template text name matched s : Text} {values : Values} {allowed : List Text}
  {c : Cut Char Text}

theorem isPatternSpace_of_isWordRune {c : Char} (h : isWordRune c = true) :
    isPatternSpace c = false := by
  by_contra hspace
  rw [Bool.not_eq_false] at hspace
  simp only [isPatternSpace, Bool.or_eq_true, decide_eq_true_eq] at hspace
  rcases hspace with (((rfl | rfl) | rfl) | rfl) | rfl <;> exact absurd h (by decide)

/-- Blanks, the name and blanks again are read off one after the other. -/
theorem matchPlaceholder_of_isPlaceholder (h : IsPlaceholder matched name) (rest : Text) :
    matchPlaceholder (matched ++ rest) = some (name, matched.length) := by
  obtain ⟨before, after, rfl, hbefore, hne, hname, hafter⟩ := h
  obtain ⟨d, name, rfl⟩ := List.exists_cons_of_ne_nil hne
  have hd : isPatternSpace d = false :=
    isPatternSpace_of_isWordRune (hname d List.mem_cons_self)
  have hword : ∀ a ∈ (after ++ '}' :: '}' :: rest).head?, isWordRune a = false := by
    intro a ha
    cases after with
    | nil =>
        obtain rfl : '}' = a := Option.some.inj ha
        decide
    | cons e after =>
        obtain rfl : e = a := Option.some.inj ha
        by_contra hword
        rw [Bool.not_eq_false] at hword
        have hspace := hafter e List.mem_cons_self
        rw [isPatternSpace_of_isWordRune hword] at hspace
        cases hspace
  have hfirst := Library.Segments.span_append (t := d :: name ++ (after ++ '}' :: '}' :: rest))
    hbefore (fun a ha => Option.some.inj ha ▸ hd)
  have hsecond := Library.Segments.span_append (s := d :: name) hname hword
  have hthird := Library.Segments.span_append (t := '}' :: '}' :: rest) hafter
    (fun a ha => Option.some.inj ha ▸ rfl)
  have htext : '{' :: '{' :: (before ++ (d :: name ++ (after ++ ['}', '}']))) ++ rest =
      '{' :: '{' :: (before ++ (d :: name ++ (after ++ '}' :: '}' :: rest))) := by
    simp
  rw [htext, matchPlaceholder]
  simp only [List.drop_succ_cons, List.drop_zero, hfirst.2, hsecond.1, hsecond.2, hthird.2]
  rw [if_pos ⟨rfl, List.cons_ne_nil d name, rfl⟩]
  simp only [List.length_cons, List.length_append, List.length_nil]
  congr 2
  omega

/-- What is read at the front of a text is a match of the pattern. -/
theorem isPlaceholder_of_matchPlaceholder {n : ℕ} (h : matchPlaceholder s = some (name, n)) :
    IsPlaceholder (s.take n) name ∧ n ≤ s.length := by
  unfold matchPlaceholder at h
  dsimp only at h
  split_ifs at h with hbraces
  obtain ⟨hopen, hne, hclose⟩ := hbraces
  obtain ⟨hname, hn⟩ := Prod.mk.inj (Option.some.inj h)
  generalize hfrom : (s.drop 2).dropWhile isPatternSpace = fromName at *
  generalize hrest : (fromName.dropWhile isWordRune).dropWhile isPatternSpace = rest at *
  have hs : s = '{' :: '{' :: ((s.drop 2).takeWhile isPatternSpace ++ (name ++
      ((fromName.dropWhile isWordRune).takeWhile isPatternSpace ++ ['}', '}']))) ++
        rest.drop 2 := by
    calc s = s.take 2 ++ s.drop 2 := (List.take_append_drop 2 s).symm
      _ = ['{', '{'] ++ ((s.drop 2).takeWhile isPatternSpace ++ fromName) := by
        rw [hopen, ← hfrom, List.takeWhile_append_dropWhile]
      _ = ['{', '{'] ++ ((s.drop 2).takeWhile isPatternSpace ++ (name ++
          ((fromName.dropWhile isWordRune).takeWhile isPatternSpace ++ rest))) := by
        rw [← hname, ← hrest, List.takeWhile_append_dropWhile, List.takeWhile_append_dropWhile]
      _ = _ := by
        conv_lhs => rw [← List.take_append_drop 2 rest, hclose]
        simp
  have hrest2 : 2 ≤ rest.length := by
    have := congrArg List.length hclose
    rw [List.length_take] at this
    simp only [List.length_cons, List.length_nil] at this
    omega
  generalize hm : '{' :: '{' :: ((s.drop 2).takeWhile isPatternSpace ++ (name ++
    ((fromName.dropWhile isWordRune).takeWhile isPatternSpace ++ ['}', '}']))) = m at hs
  have hlen : s.length = m.length + (rest.length - 2) := by
    rw [hs, List.length_append, List.length_drop]
  have hm2 : 2 ≤ m.length := by
    rw [← hm, List.length_cons, List.length_cons]
    omega
  have hn' : n = m.length := by omega
  refine ⟨⟨(s.drop 2).takeWhile isPatternSpace,
    (fromName.dropWhile isWordRune).takeWhile isPatternSpace, ?_, ?_, ?_, ?_, ?_⟩, by omega⟩
  · rw [hm, hs, hn', List.take_left]
  · exact fun c hc => List.mem_takeWhile_imp hc
  · exact hname ▸ hne
  · exact fun c hc => List.mem_takeWhile_imp (hname ▸ hc)
  · exact fun c hc => List.mem_takeWhile_imp hc

theorem matchPlaceholder_of_front (h : IsPlaceholder matched name) (hs : matched <+: s) :
    matchPlaceholder s = some (name, matched.length) := by
  obtain ⟨rest, rfl⟩ := hs
  exact matchPlaceholder_of_isPlaceholder h rest

/-- `placeholderPattern` -/
def placeholderPattern : Pattern Char Text where
  Matches := IsPlaceholder
  ne_nil := by
    rintro m b ⟨_, _, rfl, _⟩
    exact List.cons_ne_nil _ _
  unique := by
    intro m m' s b b' h h' hm hm'
    have heq := (matchPlaceholder_of_front h hm).symm.trans (matchPlaceholder_of_front h' hm')
    obtain ⟨hb, hlen⟩ := Prod.mk.inj (Option.some.inj heq)
    exact ⟨(List.prefix_of_prefix_length_le hm hm' hlen.le).eq_of_length hlen, hb⟩

/-- The regular expression at the front of a text. -/
def placeholderMatcher : Matcher placeholderPattern where
  first s := (matchPlaceholder s).map fun r => (s.take r.2, r.1)
  first_eq_some := by
    intro s m b
    rw [Option.map_eq_some_iff]
    constructor
    · rintro ⟨⟨name, n⟩, hmatch, heq⟩
      obtain ⟨hm, rfl⟩ := Prod.mk.inj heq
      exact ⟨hm ▸ (isPlaceholder_of_matchPlaceholder hmatch).1, hm ▸ List.take_prefix n s⟩
    · rintro ⟨hm, hprefix⟩
      refine ⟨(b, m.length), matchPlaceholder_of_front hm hprefix, ?_⟩
      rw [List.prefix_iff_eq_take.mp hprefix, List.length_take,
        min_eq_left hprefix.length_le]

/-- An occurrence is matched once more, to find the name in it. -/
def replacement (values : Values) (o : Occurrence Char Text) : Text :=
  match placeholderMatcher.leftmost o.matched with
  | none => o.matched
  | some (part, _) => values.get part.capture

/-- The three passes of `renderPlaceholders`, each with its own search. -/
def renderInPasses (template : Text) (values : Values) (allowed : List Text) : Except Text Text :=
  if containsPair '{' '{' template || containsPair '}' '}' template then
    match ((placeholderMatcher.findAll template).map Occurrence.capture).find? (· ∉ allowed) with
    | some name => .error ("unsupported placeholder ".toList ++ name)
    | none =>
      let stripped := placeholderMatcher.replaceAll (fun _ => []) template
      if containsPair '{' '{' stripped || containsPair '}' '}' stripped then
        .error "malformed placeholder".toList
      else .ok (placeholderMatcher.replaceAll (replacement values) template)
  else .ok (placeholderMatcher.replaceAll (replacement values) template)

theorem piecesFrom_append (u s : Text) : piecesFrom u.length (u ++ s) = piecesFrom 0 s := by
  induction u with
  | nil => rfl
  | cons a u ih => rw [List.length_cons, List.cons_append, piecesFrom, ih]

theorem piecesFrom_matched (h : IsPlaceholder matched name) (s : Text) :
    piecesFrom 0 (matched ++ s) = .placeholder name :: piecesFrom 0 s := by
  obtain ⟨a, u, rfl⟩ := List.exists_cons_of_ne_nil (placeholderPattern.ne_nil h)
  have hmatch := matchPlaceholder_of_isPlaceholder h s
  rw [List.cons_append] at hmatch
  rw [List.cons_append, piecesFrom, hmatch]
  exact congrArg (Piece.placeholder name :: ·) (piecesFrom_append u s)

theorem piecesFrom_clear {l : Text} (h : Clear placeholderPattern l s) :
    piecesFrom 0 (l ++ s) = l.map Piece.literal ++ piecesFrom 0 s := by
  induction l with
  | nil => rfl
  | cons a l ih =>
      have hfirst : placeholderMatcher.first (a :: (l ++ s)) = none :=
        Matcher.first_eq_none.mpr h.head
      rw [List.cons_append, piecesFrom, Option.map_eq_none_iff.mp hfirst]
      exact congrArg (Piece.literal a :: ·) (ih h.tail)

/-- The pieces of a template are those of its cut. -/
theorem pieces_eq (h : IsCut placeholderPattern template c) : pieces template =
    c.occurrences.flatMap (fun o => o.literal.map Piece.literal ++ [.placeholder o.capture]) ++
      c.rest.map Piece.literal := by
  obtain ⟨rfl, hc⟩ := h
  rw [pieces]
  induction hc with
  | @nil l hclear =>
      have hl := piecesFrom_clear hclear
      rw [List.append_nil] at hl
      simp [hl, piecesFrom]
  | @cons o c hclear hm _ ih =>
      rw [Cut.source_cons, piecesFrom_clear hclear, piecesFrom_matched hm, ih]
      simp [Cut.cons]

theorem names_eq (h : IsCut placeholderPattern template c) :
    (pieces template).filterMap Piece.name? = c.occurrences.map Occurrence.capture := by
  have hliteral : ∀ l : Text, (l.map Piece.literal).filterMap Piece.name? = [] := by
    intro l
    simp [List.filterMap_map, Function.comp_def, Piece.name?]
  rw [pieces_eq h, List.filterMap_append, hliteral, List.append_nil, List.filterMap_flatMap]
  induction c.occurrences with
  | nil => rfl
  | cons o os ih =>
      rw [List.flatMap_cons, ih, List.filterMap_append, hliteral]
      rfl

theorem stripped_eq (h : IsCut placeholderPattern template c) :
    (pieces template).filterMap Piece.literal? = c.fill fun _ => [] := by
  have hliteral : ∀ l : Text, (l.map Piece.literal).filterMap Piece.literal? = l := by
    intro l
    simp [List.filterMap_map, Function.comp_def, Piece.literal?]
  rw [pieces_eq h, List.filterMap_append, hliteral, List.filterMap_flatMap]
  refine congrArg (· ++ c.rest) (List.flatMap_congr fun o _ => ?_)
  rw [List.filterMap_append, hliteral]
  rfl

theorem substitute_eq (h : IsCut placeholderPattern template c) :
    substitute values template = c.fill fun o => values.get o.capture := by
  have hliteral : ∀ l : Text, (l.map Piece.literal).flatMap (Piece.text values) = l := by
    intro l
    simp [List.flatMap_map, Piece.text]
  rw [substitute, pieces_eq h, List.flatMap_append, hliteral, List.flatMap_assoc]
  refine congrArg (· ++ c.rest) (List.flatMap_congr fun o _ => ?_)
  rw [List.flatMap_append, hliteral]
  simp [Piece.text]

theorem containsPair_iff {a b : Char} : containsPair a b s = true ↔ [a, b] <:+: s := by
  induction s using containsPair.induct with
  | case1 x y s ih =>
      have hhead : [a, b] <+: x :: y :: s ↔ x = a ∧ y = b := by
        rw [List.cons_prefix_cons, List.cons_prefix_cons, and_iff_left List.nil_prefix]
        exact and_congr eq_comm eq_comm
      have hcons : [a, b] <:+: x :: y :: s ↔ [a, b] <+: x :: y :: s ∨ [a, b] <:+: y :: s :=
        List.infix_cons_iff
      rw [containsPair, Bool.or_eq_true, ih, hcons, hhead, Bool.and_eq_true, decide_eq_true_eq,
        decide_eq_true_eq]
  | case2 s hs =>
      have hlen : s.length < 2 := by
        rcases s with _ | ⟨x, _ | ⟨y, s⟩⟩
        · exact Nat.zero_lt_two
        · exact Nat.one_lt_two
        · exact absurd rfl (hs x y s)
      rw [containsPair]
      · refine iff_of_false Bool.false_ne_true fun h => ?_
        have := h.length_le
        simp only [List.length_cons, List.length_nil] at this
        omega
      · exact hs

/-- Without double braces there is no placeholder. -/
theorem occurrences_eq_nil (h : IsCut placeholderPattern template c)
    (hopen : ¬['{', '{'] <:+: template) : c.occurrences = [] := by
  obtain ⟨rfl, hc⟩ := h
  rw [List.eq_nil_iff_forall_not_mem]
  intro o ho
  obtain ⟨_, _, hm, _⟩ := hc.matches o ho
  refine hopen (List.IsInfix.trans ?_ (Cut.matched_infix_source ho))
  rw [hm]
  exact (List.prefix_append ['{', '{'] _).isInfix

/-- What `renderPlaceholders` accepts, and what it returns then, in terms of the one cut of
the template. -/
theorem renderPlaceholders_eq_ok_iff (h : IsCut placeholderPattern template c) :
    renderPlaceholders template values allowed = .ok text ↔
      (text = c.fill fun o => values.get o.capture) ∧ (∀ o ∈ c.occurrences, o.capture ∈ allowed) ∧
        ¬['{', '{'] <:+: c.fill (fun _ => []) ∧ ¬['}', '}'] <:+: c.fill (fun _ => []) := by
  unfold renderPlaceholders
  dsimp only
  rw [names_eq h, stripped_eq h, substitute_eq h]
  by_cases hbraces : (containsPair '{' '{' template || containsPair '}' '}' template) = true
  · rw [if_pos hbraces]
    split
    · next name hname =>
      refine iff_of_false (fun heq => by cases heq) fun hok => ?_
      have hnot := List.find?_some hname
      obtain ⟨o, ho, rfl⟩ := List.mem_map.mp (List.mem_of_find?_eq_some hname)
      exact of_decide_eq_true hnot (hok.2.1 o ho)
    · next hnames =>
      have hallowed : ∀ o ∈ c.occurrences, o.capture ∈ allowed := by
        intro o ho
        have := List.find?_eq_none.mp hnames _ (List.mem_map_of_mem ho)
        simpa using this
      split_ifs with hleft
      · rw [Bool.or_eq_true, containsPair_iff, containsPair_iff] at hleft
        refine iff_of_false (fun heq => by cases heq) fun hok => ?_
        exact hleft.elim hok.2.2.1 hok.2.2.2
      · rw [Bool.or_eq_true, containsPair_iff, containsPair_iff, not_or] at hleft
        exact ⟨fun heq => ⟨(Except.ok.inj heq).symm, hallowed, hleft⟩, fun hok => hok.1 ▸ rfl⟩
  · rw [if_neg hbraces]
    rw [Bool.or_eq_true, containsPair_iff, containsPair_iff, not_or] at hbraces
    have hnil := occurrences_eq_nil h hbraces.1
    have hstripped : c.fill (fun _ => []) = template := by
      rw [← h.1, Cut.source, Cut.fill, Cut.fill, hnil]
      rfl
    rw [hstripped, hnil]
    exact ⟨fun heq => ⟨(Except.ok.inj heq).symm, fun o ho => absurd ho List.not_mem_nil, hbraces⟩,
      fun hok => hok.1 ▸ rfl⟩

/-- Going over the template three times finds the same occurrences each time. -/
theorem renderPlaceholders_eq_renderInPasses (template : Text) (values : Values)
    (allowed : List Text) :
    renderPlaceholders template values allowed = renderInPasses template values allowed := by
  obtain ⟨c, hc⟩ := placeholderMatcher.exists_isCut template
  have hagain : ∀ o ∈ c.occurrences, replacement values o = values.get o.capture := by
    intro o ho
    have hcut : Leftmost placeholderPattern (Cut.cons ⟨[], o.matched, o.capture⟩ ⟨[], []⟩) :=
      .cons (clear_nil _ _) (hc.2.matches o ho) (.nil (clear_nil _ _))
    have hfirst := Matcher.leftmost_source_cons (M := placeholderMatcher) hcut
    rw [Cut.source_cons, Cut.source_nil, List.append_nil, List.nil_append] at hfirst
    rw [replacement, hfirst]
  have hfill : c.fill (fun o => values.get o.capture) = c.fill (replacement values) := by
    refine congrArg (· ++ c.rest) (List.flatMap_congr fun o ho => ?_)
    rw [hagain o ho]
  unfold renderInPasses
  dsimp only
  rw [Matcher.findAll_eq hc, Matcher.replaceAll_eq _ hc, Matcher.replaceAll_eq _ hc, ← hfill,
    ← names_eq hc, ← stripped_eq hc, ← substitute_eq hc]
  rfl

/-- Rendering puts the values into the one cut of the template, whatever they hold. -/
theorem renderPlaceholders_single_pass (h : renderPlaceholders template values allowed = .ok text) :
    ∃ c, (∀ c', IsCut placeholderPattern template c' ↔ c' = c) ∧
      (text = c.fill fun o => values.get o.capture) ∧
      (∀ o ∈ c.occurrences, o.capture ∈ allowed) ∧
      (∀ l ∈ c.literals, ¬['{', '{'] <:+: l ∧ ¬['}', '}'] <:+: l) ∧
      ∀ values', renderPlaceholders template values' allowed =
        .ok (c.fill fun o => Values.get values' o.capture) := by
  obtain ⟨c, hc, hunique⟩ := placeholderMatcher.isCut_unique template
  obtain ⟨htext, hallowed, hopen, hclose⟩ := (renderPlaceholders_eq_ok_iff hc).mp h
  refine ⟨c, fun c' => ⟨hunique c', fun heq => heq ▸ hc⟩, htext, hallowed, fun l hl => ?_,
    fun values' => (renderPlaceholders_eq_ok_iff hc).mpr ⟨rfl, hallowed, hopen, hclose⟩⟩
  have hstripped := Cut.literal_infix_fill (fun _ => []) hl
  exact ⟨fun hin => hopen (hin.trans hstripped), fun hin => hclose (hin.trans hstripped)⟩

/-- One brace more than the placeholder needs on each side. -/
def sampleTemplate : Text :=
  "\x7b\x7b\x7b secret_title \x7d\x7d\x7d: \x7b\x7bsecure_link\x7d\x7d".toList

def sampleValues : Values :=
  [("secure_link".toList, "https://x".toList),
    ("secret_title".toList, "\x7b\x7bsecure_link\x7d\x7d".toList)]

def sampleRendered : Text := "\x7b\x7b\x7bsecure_link\x7d\x7d\x7d: https://x".toList

/-- A title that looks like a placeholder stays a title. -/
theorem renderPlaceholders_single_pass_sample :
    ∃ c, (∀ c', IsCut placeholderPattern sampleTemplate c' ↔ c' = c) ∧
      (sampleRendered = c.fill fun o => sampleValues.get o.capture) ∧
      (∀ o ∈ c.occurrences, o.capture ∈ messagePlaceholders) ∧
      (∀ l ∈ c.literals, ¬['{', '{'] <:+: l ∧ ¬['}', '}'] <:+: l) ∧
      ∀ values', renderPlaceholders sampleTemplate values' messagePlaceholders =
        .ok (c.fill fun o => Values.get values' o.capture) :=
  renderPlaceholders_single_pass (by decide +kernel)

end SecureShare.Email
