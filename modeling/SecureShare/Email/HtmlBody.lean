import SecureShare.Email.Rendering
import SecureShare.Library.Markup

/-!
# The HTML body of a message

The body is read with a reader for markup: it has the tags of one fixed document, a
paragraph for each run of lines that are not empty, and the characters of the subject and
of the paragraphs as they are.
-/
namespace SecureShare.Email
open Go Library.Segments Library.Markup

/-! ### Paragraphs -/

/-- The lines of a text, if CR LF ends a line as LF does. -/
def normalizedLines (text : Text) : List Text := (replaceCRLF text).splitOn '\n'

def isBlank (text : Text) : Bool := trimSpace text = []

/-- The runs of lines that are not empty, unless all their lines are blank. -/
def paragraphs (text : Text) : List (List Text) :=
  ((normalizedLines text).splitOn []).filter fun lines => !lines.all isBlank

/-- `strings.Trim` of line feeds. -/
def trimLines (chunk : Text) : Text := (chunk.dropWhile (· = '\n')).rdropWhile (· = '\n')

/-- The parts of a text between empty lines. -/
def keptChunks (s : Text) : List Text :=
  ((splitPair '\n' '\n' s).map trimLines).filter (· ≠ [])

def lineGroups (lines : List Text) : List (List Text) := (lines.splitOn []).filter (· ≠ [])

section paragraphs
variable {s t : Text} {lines : List Text}

theorem splitPair_append {a b : Char} (h : a ∉ s) (t : Text) :
    splitPair a b (s ++ t) = (splitPair a b t).modifyHead (s ++ ·) := by
  induction s with
  | nil =>
      obtain ⟨part, parts, hparts⟩ := List.exists_cons_of_ne_nil (splitPair_ne_nil a b t)
      rw [List.nil_append, hparts]
      rfl
  | cons c s ih =>
      obtain ⟨hc, hs⟩ : a ≠ c ∧ a ∉ s := by simpa using h
      obtain ⟨part, parts, hparts⟩ := List.exists_cons_of_ne_nil (splitPair_ne_nil a b t)
      have hrest := ih hs
      rw [hparts] at hrest ⊢
      rcases hst : s ++ t with _ | ⟨d, rest⟩
      · obtain ⟨rfl, rfl⟩ := List.append_eq_nil_iff.mp hst
        cases hparts
        rfl
      · rw [List.cons_append, hst, splitPair, if_neg fun h => hc h.1.symm, ← hst, hrest]
        rfl

theorem lineGroups_nil_cons (lines : List Text) : lineGroups ([] :: lines) = lineGroups lines := by
  simp [lineGroups, List.splitOn_cons_eq_if_modifyHead]

/-- A line that is not empty opens a group. -/
theorem lineGroups_cons (ht : t ≠ []) (lines : List Text) :
    ∃ group groups, lineGroups (t :: lines) = (t :: group) :: groups ∧
      ∀ s, s ≠ [] → lineGroups (s :: t :: lines) = (s :: t :: group) :: groups := by
  obtain ⟨part, parts, hparts⟩ := List.exists_cons_of_ne_nil (List.splitOn_ne_nil [] lines)
  refine ⟨part, parts.filter (· ≠ []), ?_, fun s hs => ?_⟩
  · simp [lineGroups, List.splitOn_cons_eq_if_modifyHead, ht, hparts]
  · simp [lineGroups, List.splitOn_cons_eq_if_modifyHead, ht, hs, hparts]

theorem dropWhile_lineFeed (h : '\n' ∉ s) : s.dropWhile (· = '\n') = s := by
  rw [List.dropWhile_eq_self_iff]
  intro hlength
  simpa using ne_of_mem_of_not_mem (List.getElem_mem hlength) h

theorem trimLines_of_notMem (h : '\n' ∉ s) : trimLines s = s := by
  rw [trimLines, dropWhile_lineFeed h, List.rdropWhile_eq_self_iff]
  intro hne
  simpa using ne_of_mem_of_not_mem (List.getLast_mem hne) h

theorem keptChunks_line (h : '\n' ∉ s) : keptChunks s = if s = [] then [] else [s] := by
  have hsplit : splitPair '\n' '\n' s = [s] := by
    have happend := splitPair_append (b := '\n') h []
    rw [List.append_nil] at happend
    rw [happend]
    simp [splitPair]
  rw [keptChunks, hsplit, List.map_singleton, trimLines_of_notMem h]
  split_ifs with hs <;> simp [hs]

/-- A line feed at the end is trimmed. -/
theorem keptChunks_lineFeed (h : '\n' ∉ s) :
    keptChunks (s ++ ['\n']) = if s = [] then [] else [s] := by
  have htrim : trimLines (s ++ ['\n']) = s := by
    have hs := trimLines_of_notMem h
    rw [trimLines, dropWhile_lineFeed h] at hs
    rw [trimLines, List.dropWhile_append, dropWhile_lineFeed h]
    split_ifs with hempty
    · rw [List.isEmpty_iff.mp hempty]
      rfl
    · rw [List.rdropWhile_concat_pos _ _ _ (by simp)]
      exact hs
  rw [keptChunks, splitPair_append h]
  simp only [splitPair, List.modifyHead_cons, List.map_singleton, htrim]
  split_ifs with hs <;> simp [hs]

theorem keptChunks_emptyLine (h : '\n' ∉ s) (t : Text) :
    keptChunks (s ++ '\n' :: '\n' :: t) = (if s = [] then [] else [s]) ++ keptChunks t := by
  have hsplit : splitPair '\n' '\n' (s ++ '\n' :: '\n' :: t) = s :: splitPair '\n' '\n' t := by
    rw [splitPair_append h, splitPair, if_pos ⟨rfl, rfl⟩]
    simp
  rw [keptChunks, hsplit, List.map_cons, trimLines_of_notMem h, List.filter_cons]
  split_ifs with hs <;> simp_all [keptChunks]

/-- A line is in the chunk of the next one, unless it is empty. -/
theorem keptChunks_nextLine (h : '\n' ∉ s) {c : Char} (hc : c ≠ '\n') (t : Text) :
    ∃ chunk chunks, keptChunks (c :: t) = chunk :: chunks ∧ keptChunks (s ++ '\n' :: c :: t) =
      (if s = [] then chunk else s ++ '\n' :: chunk) :: chunks := by
  obtain ⟨part, parts, hparts⟩ := List.exists_cons_of_ne_nil (splitPair_ne_nil '\n' '\n' t)
  have hfirst : splitPair '\n' '\n' (c :: t) = (c :: part) :: parts := by
    have happend := splitPair_append (s := [c]) (b := '\n') (by simpa using Ne.symm hc) t
    rw [hparts] at happend
    exact happend
  have hsecond : splitPair '\n' '\n' (s ++ '\n' :: c :: t) = (s ++ '\n' :: c :: part) :: parts := by
    rw [splitPair_append h, splitPair, if_neg fun h => hc h.2, hfirst]
    rfl
  have hexists : ∃ b ∈ c :: part, decide (b = '\n') = false :=
    ⟨c, List.mem_cons_self, decide_eq_false hc⟩
  have hne : (c :: part).rdropWhile (· = '\n') ≠ [] := by
    rw [Ne, List.rdropWhile_eq_nil_iff]
    intro hall
    exact hc (of_decide_eq_true (hall c List.mem_cons_self))
  have hdrop : (c :: part).dropWhile (· = '\n') = c :: part :=
    List.dropWhile_cons_of_neg (by simpa using hc)
  have htrim : trimLines (s ++ '\n' :: c :: part) = if s = [] then
      (c :: part).rdropWhile (· = '\n') else s ++ '\n' :: (c :: part).rdropWhile (· = '\n') := by
    rw [trimLines, List.dropWhile_append, dropWhile_lineFeed h]
    split_ifs with hempty hs hs
    · rw [List.dropWhile_cons_of_pos (by simp), hdrop]
    · exact absurd (List.isEmpty_iff.mp hempty) hs
    · exact absurd (List.isEmpty_iff.mpr hs) hempty
    · rw [List.append_cons, rdropWhile_append_of_exists hexists, ← List.append_cons]
  refine ⟨(c :: part).rdropWhile (· = '\n'), (parts.map trimLines).filter (· ≠ []), ?_, ?_⟩
  · rw [keptChunks, hfirst, List.map_cons, trimLines, hdrop, List.filter_cons_of_pos]
    exact decide_eq_true hne
  · rw [keptChunks, hsecond, List.map_cons, htrim, List.filter_cons_of_pos]
    split_ifs with hs
    · exact decide_eq_true hne
    · simp

/-- The chunks are the groups of lines that are not empty. -/
theorem keptChunks_intercalate (hne : lines ≠ []) (h : ∀ line ∈ lines, '\n' ∉ line) :
    keptChunks (['\n'].intercalate lines) = (lineGroups lines).map (['\n'].intercalate ·) := by
  induction lines using List.twoStepInduction with
  | nil => exact absurd rfl hne
  | singleton line =>
      rw [List.intercalate_singleton, keptChunks_line (h line List.mem_cons_self)]
      split_ifs with hline <;> simp [lineGroups, List.splitOn_cons_eq_if_modifyHead, hline]
  | cons_cons line next lines ih₂ ih₁ =>
      obtain ⟨hline, hrest⟩ := List.forall_mem_cons.mp h
      obtain ⟨hnext, hlines⟩ := List.forall_mem_cons.mp hrest
      rw [List.intercalate_cons_cons, List.append_assoc, List.singleton_append]
      cases next with
      | nil =>
          have hgroups : lineGroups (line :: [] :: lines) =
              (if line = [] then [] else [[line]]) ++ lineGroups lines := by
            by_cases hempty : line = [] <;>
              simp [lineGroups, List.splitOn_cons_eq_if_modifyHead, hempty]
          rw [hgroups, List.map_append]
          cases lines with
          | nil =>
              rw [List.intercalate_singleton, keptChunks_lineFeed hline]
              split_ifs <;> simp [lineGroups]
          | cons third lines =>
              rw [List.intercalate_cons_cons, List.nil_append, List.singleton_append,
                keptChunks_emptyLine hline, ih₂ (by simp) hlines]
              split_ifs <;> simp
      | cons c next =>
          obtain ⟨rest, hrest'⟩ : ∃ rest, ['\n'].intercalate ((c :: next) :: lines) = c :: rest := by
            cases lines with
            | nil => exact ⟨next, by simp⟩
            | cons third lines => exact ⟨_, by rw [List.intercalate_cons_cons]; rfl⟩
          have hc : c ≠ '\n' := fun hc => hnext (hc ▸ List.mem_cons_self)
          obtain ⟨chunk, chunks, hchunks, hlonger⟩ := keptChunks_nextLine hline hc rest
          obtain ⟨group, groups, hgroups, hadded⟩ := lineGroups_cons (List.cons_ne_nil c next) lines
          have ih := ih₁ _ (by simp) hrest
          rw [hrest', hchunks, hgroups, List.map_cons] at ih
          obtain ⟨hchunk, hchunks'⟩ := List.cons.inj ih
          rw [hrest', hlonger]
          split_ifs with hempty
          · rw [hempty, lineGroups_nil_cons, hgroups, List.map_cons, hchunk, hchunks']
          · rw [hadded line hempty, List.map_cons, hchunk, hchunks', List.intercalate_cons_cons,
              List.append_assoc]
            rfl

theorem trimSpace_eq_nil_iff : trimSpace s = [] ↔ ∀ c ∈ s, isSpace c = true := by
  constructor
  · intro h c hc
    by_contra hspace
    exact trimSpace_ne_nil_of_mem (Bool.eq_false_of_not_eq_true hspace) hc h
  · intro h
    rw [trimSpace, List.dropWhile_eq_nil_iff.mpr h]
    rfl

/-- A paragraph is blank if all its lines are. -/
theorem isBlank_intercalate (lines : List Text) :
    isBlank (['\n'].intercalate lines) = lines.all isBlank := by
  have hall : ∀ lines : List Text, (∀ c ∈ ['\n'].intercalate lines, isSpace c = true) ↔
      ∀ line ∈ lines, ∀ c ∈ line, isSpace c = true := by
    intro lines
    induction lines with
    | nil => simp
    | cons line lines ih =>
        cases lines with
        | nil => simp
        | cons next lines =>
            have hfeed : isSpace '\n' = true := by decide
            rw [List.intercalate_cons_cons, List.forall_mem_cons, ← ih]
            simp only [List.forall_mem_append, List.forall_mem_singleton, hfeed, and_true]
  rw [Bool.eq_iff_iff, List.all_eq_true]
  simp only [isBlank, decide_eq_true_eq, trimSpace_eq_nil_iff]
  exact hall lines

theorem splitParagraphs_eq (text : Text) :
    splitParagraphs text = (paragraphs text).map (['\n'].intercalate ·) := by
  have hchunks : splitParagraphs text = (keptChunks (replaceCRLF text)).filter (!isBlank ·) := by
    unfold splitParagraphs keptChunks
    rw [List.filter_filter]
    apply List.filter_congr
    intro chunk _
    cases chunk with
    | nil => rfl
    | cons c chunk => simp [isBlank]
  have hgroups : paragraphs text =
      (lineGroups (normalizedLines text)).filter fun lines => !lines.all isBlank := by
    unfold paragraphs lineGroups
    rw [List.filter_filter]
    apply List.filter_congr
    intro lines _
    cases lines <;> simp
  have hlines : ['\n'].intercalate (normalizedLines text) = replaceCRLF text :=
    List.intercalate_splitOn '\n'
  have hkept := keptChunks_intercalate (List.splitOn_ne_nil '\n' (replaceCRLF text))
    fun line hline => notMem_of_mem_splitOn hline
  rw [← normalizedLines, hlines] at hkept
  rw [hchunks, hgroups, hkept, List.filter_map]
  congr 2
  funext lines
  exact congrArg (!·) (isBlank_intercalate lines)

/-- The lines of a paragraph are found again in its text. -/
theorem splitOn_paragraph (h : lines ∈ paragraphs t) :
    (['\n'].intercalate lines).splitOn '\n' = lines := by
  obtain ⟨hmem, hblank⟩ := List.mem_filter.mp h
  apply List.splitOn_intercalate
  · intro line hline
    exact notMem_of_mem_splitOn (subset_of_mem_splitOn hmem hline)
  · rintro rfl
    cases hblank

/-- No line that is not blank is lost. -/
theorem paragraphs_complete (text : Text) :
    (paragraphs text).flatten.filter (!isBlank ·) = (normalizedLines text).filter (!isBlank ·) := by
  have hgroups : ∀ groups : List (List Text),
      (groups.filter fun lines => !lines.all isBlank).flatten.filter (!isBlank ·) =
        groups.flatten.filter (!isBlank ·) := by
    intro groups
    induction groups with
    | nil => rfl
    | cons lines groups ih =>
        rw [List.filter_cons]
        split_ifs with hlines
        · simp only [List.flatten_cons, List.filter_append, ih]
        · have hempty : lines.filter (!isBlank ·) = [] := by
            rw [List.filter_eq_nil_iff]
            simpa using hlines
          rw [ih, List.flatten_cons, List.filter_append, hempty, List.nil_append]
  have hsplit : ∀ lines : List Text,
      (lines.splitOn []).flatten.filter (!isBlank ·) = lines.filter (!isBlank ·) := by
    intro lines
    induction lines with
    | nil => rfl
    | cons line lines ih =>
        obtain ⟨group, groups, hsplit⟩ := List.exists_cons_of_ne_nil (List.splitOn_ne_nil [] lines)
        rw [hsplit] at ih
        rw [List.splitOn_cons_eq_if_modifyHead, hsplit]
        split_ifs with hline
        · have hblank : isBlank line = true := by
            rw [eq_of_beq hline]
            rfl
          simpa [hblank] using ih
        · simp only [List.modifyHead_cons, List.flatten_cons, List.cons_append, List.filter_cons]
          rw [← List.flatten_cons, ih]
  exact (hgroups _).trans (hsplit _)

end paragraphs

/-! ### Markup -/

/-- The references that `html.EscapeString` writes. -/
def references : References :=
  [("amp;".toList, '&'), ("#39;".toList, '\u0027'), ("lt;".toList, '<'), ("gt;".toList, '>'),
    ("#34;".toList, '\u0022')]

def bodyTags : List Text :=
  ["!doctype html".toList, "html".toList,
    ("body style=\"margin:0;padding:24px;background:#f6f8f7;" ++
      "color:#16211f;font-family:Arial,sans-serif;\"").toList,
    ("main style=\"max-width:640px;margin:0 auto;background:#ffffff;" ++
      "border:1px solid #dfe6e3;padding:24px;\"").toList,
    "h1 style=\"font-size:20px;line-height:1.3;margin:0 0 16px;\"".toList]

def paragraphTag : Text := "p style=\"font-size:15px;line-height:1.6;margin:0 0 14px;\"".toList

def noteTag : Text :=
  "p style=\"font-size:13px;line-height:1.5;margin:18px 0 0;color:#64716d;\"".toList

def noteText : Text :=
  "This email contains only a one-time link. The secret value is never included in email.".toList

/-- The tokens of a paragraph: its lines with a break between two of them. -/
def paragraphTokens (lines : List Text) : List Token :=
  .tag paragraphTag :: [Token.tag "br".toList].intercalate (lines.map (·.map .char)) ++
    [.tag "/p".toList]

/-- The document that a subject and paragraphs make. -/
def document (subject : Text) (paragraphs : List (List Text)) : List Token :=
  bodyTags.map .tag ++ subject.map .char ++ [.tag "/h1".toList] ++
    paragraphs.flatMap paragraphTokens ++
    [.tag noteTag] ++ noteText.map .char ++
    [.tag "/p".toList, .tag "/main".toList, .tag "/body".toList, .tag "/html".toList]

section markup
variable {lines : List Text}

theorem escapes_references : Escapes references fun c =>
    if c = '&' then "&amp;".toList
    else if c = '\u0027' then "&#39;".toList
    else if c = '<' then "&lt;".toList
    else if c = '>' then "&gt;".toList
    else if c = '\u0022' then "&#34;".toList
    else [c] := by
  intro c
  dsimp only
  split_ifs with hamp hquote hlt hgt hdouble
  · exact .inr ⟨['a', 'm', 'p', ';'], rfl, fun s => by rw [hamp]; rfl⟩
  · exact .inr ⟨['#', '3', '9', ';'], rfl, fun s => by rw [hquote]; rfl⟩
  · exact .inr ⟨['l', 't', ';'], rfl, fun s => by rw [hlt]; rfl⟩
  · exact .inr ⟨['g', 't', ';'], rfl, fun s => by rw [hgt]; rfl⟩
  · exact .inr ⟨['#', '3', '4', ';'], rfl, fun s => by rw [hdouble]; rfl⟩
  · exact .inl ⟨rfl, hlt, hamp⟩

theorem tokens_escapeString (text s : Text) :
    tokens references (escapeString text ++ s) = text.map .char ++ tokens references s :=
  tokens_escape escapes_references text s

/-- The lines of a paragraph are read with a break between two of them. -/
theorem tokens_lines (lines : List Text) (s : Text) :
    tokens references ("<br>".toList.intercalate (lines.map escapeString) ++ s) =
      [Token.tag "br".toList].intercalate (lines.map (·.map .char)) ++ tokens references s := by
  have hbreak : "<br>".toList = written "br".toList := rfl
  induction lines with
  | nil => rfl
  | cons line lines ih =>
      cases lines with
      | nil =>
          rw [List.map_singleton, List.map_singleton, List.intercalate_singleton,
            List.intercalate_singleton, tokens_escapeString]
      | cons next lines =>
          simp only [List.map_cons] at ih ⊢
          rw [List.intercalate_cons_cons, List.intercalate_cons_cons, List.append_assoc,
            List.append_assoc, tokens_escapeString, hbreak, tokens_written (by decide), ← hbreak, ih]
          simp only [List.append_assoc, List.cons_append, List.nil_append]

/-- A paragraph as it is written. -/
def paragraphMarkup (paragraph : Text) : Text :=
  written paragraphTag ++ "<br>".toList.intercalate ((paragraph.splitOn '\n').map escapeString) ++
    written "/p".toList

theorem written_bodyTags :
    ("<!doctype html><html><body style=\"margin:0;padding:24px;background:#f6f8f7;" ++
      "color:#16211f;font-family:Arial,sans-serif;\">" ++
    "<main style=\"max-width:640px;margin:0 auto;background:#ffffff;" ++
      "border:1px solid #dfe6e3;padding:24px;\">" ++
    "<h1 style=\"font-size:20px;line-height:1.3;margin:0 0 16px;\">").toList =
      bodyTags.flatMap written := by
  simp only [bodyTags, String.toList_append]
  repeat rw [String.toList_ofList]
  decide +kernel

theorem written_paragraphTag :
    "<p style=\"font-size:15px;line-height:1.6;margin:0 0 14px;\">".toList =
      written paragraphTag := by
  unfold paragraphTag
  repeat rw [String.toList_ofList]
  decide +kernel

theorem written_note :
    ("<p style=\"font-size:13px;line-height:1.5;margin:18px 0 0;color:#64716d;\">" ++
    "This email contains only a one-time link. The secret value is never included in email.</p>" ++
    "</main></body></html>").toList = written noteTag ++ escapeString noteText ++
      ["/p".toList, "/main".toList, "/body".toList, "/html".toList].flatMap written := by
  unfold noteTag noteText
  rw [String.toList_append, String.toList_append]
  repeat rw [String.toList_ofList]
  decide +kernel

/-- The body as it is written: tags and escaped text. -/
theorem textToHTML_written (subject text : Text) : textToHTML subject text =
    bodyTags.flatMap written ++ escapeString subject ++ written "/h1".toList ++
      (splitParagraphs text).flatMap paragraphMarkup ++
      (written noteTag ++ escapeString noteText ++
        ["/p".toList, "/main".toList, "/body".toList, "/html".toList].flatMap written) := by
  unfold textToHTML
  rw [written_bodyTags, written_paragraphTag, written_note]
  rfl

theorem isContent_bodyTags : bodyTags.all isContent = true ∧ isContent paragraphTag = true ∧
    isContent noteTag = true := by
  unfold bodyTags paragraphTag noteTag
  rw [String.toList_append, String.toList_append]
  repeat rw [String.toList_ofList]
  decide +kernel

/-- The body is the document with the subject and the paragraphs of the text, so neither of
them adds a tag, and every line that is not blank is in it. -/
theorem textToHTML_faithful (subject text : Text) :
    tokens references (textToHTML subject text) = document subject (paragraphs text) ∧
    (paragraphs text).flatten.filter (!isBlank ·) =
      (normalizedLines text).filter (!isBlank ·) := by
  refine ⟨?_, paragraphs_complete text⟩
  obtain ⟨hbody, hparagraph, hnote⟩ := isContent_bodyTags
  have hparagraphs : ∀ (ps : List (List Text)) (s : Text), (∀ lines ∈ ps,
      (['\n'].intercalate lines).splitOn '\n' = lines) →
      tokens references ((ps.map (['\n'].intercalate ·)).flatMap paragraphMarkup ++ s) =
        ps.flatMap paragraphTokens ++ tokens references s := by
    intro ps s hlines
    induction ps with
    | nil => rfl
    | cons lines ps ih =>
        obtain ⟨hfirst, hrest⟩ := List.forall_mem_cons.mp hlines
        rw [List.map_cons, List.flatMap_cons, paragraphMarkup, hfirst, List.append_assoc,
          List.append_assoc, List.append_assoc, tokens_written hparagraph, tokens_lines,
          tokens_written (by decide), ih hrest, List.flatMap_cons]
        simp only [paragraphTokens, List.cons_append, List.append_assoc, List.nil_append]
  rw [textToHTML_written, splitParagraphs_eq]
  simp only [List.append_assoc]
  rw [tokens_flatMap_written hbody, tokens_escapeString, tokens_written (by decide),
    hparagraphs _ _ fun lines hlines => splitOn_paragraph hlines, tokens_written hnote,
    tokens_escapeString]
  rw [← List.append_nil (List.flatMap written _), tokens_flatMap_written (by decide +kernel)]
  simp only [document, List.append_assoc, List.cons_append, List.nil_append, List.map_cons,
    List.map_nil, tokens_nil]

end markup

end SecureShare.Email
