import SecureShare.Email.Message
import SecureShare.Library.Segments

/-!
# The link in a rendered message

The link reaches the text as the value of its placeholder or in the sentence that is
appended. It has no line break, so nothing that trims, splits or normalises the text by
its line breaks cuts it, and no paragraph that holds it is dropped as blank.
-/
namespace SecureShare.Email
open Go Library.Segments
open Delivery (bind_eq_ok)

def paragraphStart : Text := "<p style=\"font-size:15px;line-height:1.6;margin:0 0 14px;\">".toList

def paragraphEnd : Text := "</p>".toList

/-- The lines of a paragraph, as they stand in its element. -/
def paragraphContent (paragraph : Text) : Text :=
  "<br>".toList.intercalate ((paragraph.splitOn '\n').map escapeString)

/-- One paragraph of the HTML body holds the text. -/
def InParagraph (w html : Text) : Prop :=
  ∃ before content after, html = before ++ paragraphStart ++ content ++ paragraphEnd ++ after ∧
    w <:+: content ∧ ¬paragraphEnd <:+: content

section breaks
variable {w text : Text}

/-- A text in one line, at the front, stays as it is. -/
theorem prefix_replaceCRLF (hw : '\r' ∉ w) (h : w <+: text) : w <+: replaceCRLF text := by
  induction w generalizing text with
  | nil => exact List.nil_prefix
  | cons c w ih =>
      obtain ⟨rest, rfl⟩ := h
      obtain ⟨hc, hw⟩ : '\r' ≠ c ∧ '\r' ∉ w := by simpa using hw
      rcases hrest : w ++ rest with _ | ⟨d, rest'⟩
      · rw [List.cons_append, hrest, List.append_eq_nil_iff.mp hrest |>.1]
        exact List.prefix_refl _
      · rw [List.cons_append, hrest, replaceCRLF, if_neg fun h => hc h.1.symm,
          List.cons_prefix_cons, ← hrest]
        exact ⟨rfl, ih hw (List.prefix_append w rest)⟩

theorem infix_replaceCRLF (hne : w ≠ []) (hr : '\r' ∉ w) (hn : '\n' ∉ w) (h : w <:+: text) :
    w <:+: replaceCRLF text := by
  induction text using replaceCRLF.induct with
  | case1 x y s hxy ih =>
      rw [replaceCRLF, if_pos hxy]
      obtain ⟨rfl, rfl⟩ := hxy
      have hs := infix_tail_of_head_notMem hne hn (infix_tail_of_head_notMem hne hr h)
      exact (ih hs).trans (List.suffix_cons _ _).isInfix
  | case2 x y s hxy ih =>
      rw [replaceCRLF, if_neg hxy]
      rcases List.infix_cons_iff.mp h with hprefix | hinfix
      · have hkept := prefix_replaceCRLF hr hprefix
        rw [replaceCRLF, if_neg hxy] at hkept
        exact hkept.isInfix
      · exact (ih hinfix).trans (List.suffix_cons _ _).isInfix
  | case3 s hs =>
      rw [replaceCRLF]
      · exact h
      · exact hs

theorem splitPair_ne_nil (a b : Char) (s : Text) : splitPair a b s ≠ [] := by
  induction s using splitPair.induct a b with
  | case1 x y s hxy ih =>
      rw [splitPair, if_pos hxy]
      exact List.cons_ne_nil _ _
  | case2 x y s hxy ih =>
      rw [splitPair, if_neg hxy]
      exact fun h => ih (List.modifyHead_eq_nil_iff.mp h)
  | case3 s hs =>
      rw [splitPair]
      · exact List.cons_ne_nil _ _
      · exact hs

theorem prefix_head_splitPair {a b : Char} (ha : a ∉ w) (h : w <+: text) :
    ∃ part parts, splitPair a b text = part :: parts ∧ w <+: part := by
  induction w generalizing text with
  | nil =>
      obtain ⟨part, parts, hparts⟩ := List.exists_cons_of_ne_nil (splitPair_ne_nil a b text)
      exact ⟨part, parts, hparts, List.nil_prefix⟩
  | cons c w ih =>
      obtain ⟨rest, rfl⟩ := h
      obtain ⟨hc, hw⟩ : a ≠ c ∧ a ∉ w := by simpa using ha
      rcases hrest : w ++ rest with _ | ⟨d, rest'⟩
      · rw [List.cons_append, hrest, (List.append_eq_nil_iff.mp hrest).1]
        exact ⟨[c], [], rfl, List.prefix_refl _⟩
      · obtain ⟨part, parts, hparts, hprefix⟩ := ih hw (List.prefix_append w rest)
        rw [hrest] at hparts
        refine ⟨c :: part, parts, ?_, List.cons_prefix_cons.mpr ⟨rfl, hprefix⟩⟩
        rw [List.cons_append, hrest, splitPair, if_neg fun h => hc h.1.symm, hparts]
        rfl

/-- A text that holds neither half of the separator is in one of the parts. -/
theorem exists_infix_splitPair {a b : Char} (hne : w ≠ []) (ha : a ∉ w) (hb : b ∉ w)
    (h : w <:+: text) : ∃ part ∈ splitPair a b text, w <:+: part := by
  induction text using splitPair.induct a b with
  | case1 x y s hxy ih =>
      rw [splitPair, if_pos hxy]
      obtain ⟨rfl, rfl⟩ := hxy
      have hs := infix_tail_of_head_notMem hne hb (infix_tail_of_head_notMem hne ha h)
      obtain ⟨part, hpart, hw⟩ := ih hs
      exact ⟨part, List.mem_cons_of_mem _ hpart, hw⟩
  | case2 x y s hxy ih =>
      rcases List.infix_cons_iff.mp h with hprefix | hinfix
      · obtain ⟨part, parts, hparts, hw⟩ := prefix_head_splitPair (b := b) ha hprefix
        exact ⟨part, hparts ▸ List.mem_cons_self, hw.isInfix⟩
      · obtain ⟨part, hpart, hw⟩ := ih hinfix
        obtain ⟨first, rest, hfirst⟩ := List.exists_cons_of_ne_nil (splitPair_ne_nil a b (y :: s))
        rw [splitPair, if_neg hxy]
        rw [hfirst] at hpart ⊢
        rcases List.mem_cons.mp hpart with rfl | hpart
        · exact ⟨x :: part, List.mem_cons_self, hw.trans (List.suffix_cons x part).isInfix⟩
        · exact ⟨part, List.mem_cons_of_mem _ hpart, hw⟩
  | case3 s hs =>
      rw [splitPair]
      · exact ⟨s, List.mem_singleton_self s, h⟩
      · exact hs

/-- Trimming leaves something of a text that is not blank. -/
theorem trimSpace_ne_nil_of_mem {c : Char} (hc : isSpace c = false) (h : c ∈ text) :
    trimSpace text ≠ [] := List.ne_nil_of_mem ((mem_trimSpace hc).mpr h)

/-- A text in one line that is not blank is in one of the paragraphs. -/
theorem exists_paragraph (hblank : trimSpace w ≠ []) (hr : '\r' ∉ w) (hn : '\n' ∉ w)
    (h : w <:+: text) : ∃ paragraph ∈ splitParagraphs text, w <:+: paragraph := by
  have hne : w ≠ [] := by
    rintro rfl
    exact hblank rfl
  obtain ⟨chunk, hchunk, hw⟩ :=
    exists_infix_splitPair (b := '\n') hne hn hn (infix_replaceCRLF hne hr hn h)
  have hclean : ∀ c ∈ w, decide (c = '\n') = false := by
    rintro c hc
    exact decide_eq_false fun heq => hn (heq ▸ hc)
  have htrimmed := infix_rdropWhile hne hclean (infix_dropWhile hne hclean hw)
  refine ⟨_, List.mem_filter.mpr ⟨List.mem_map_of_mem hchunk, ?_⟩, htrimmed⟩
  obtain ⟨d, hd⟩ : ∃ d, d ∈ (trimSpace w).head? :=
    ⟨_, List.head?_eq_some_head hblank⟩
  have hspace := trimSpace_head w d hd
  have hmem : d ∈ w := by
    have hsub : trimSpace w ⊆ w := fun x hx =>
      (List.dropWhile_suffix isSpace).subset ((List.rdropWhile_prefix _ _).subset hx)
    exact hsub (List.mem_of_mem_head? hd)
  exact decide_eq_true (trimSpace_ne_nil_of_mem hspace (htrimmed.subset hmem))

end breaks

section markup
variable {s t w : Text} {ls : List Text}

/-- Every text that is written into the body is escaped. -/
theorem lt_notMem_escapeString (s : Text) : '<' ∉ escapeString s := by
  rw [escapeString, List.mem_flatMap]
  rintro ⟨c, _, hc⟩
  split_ifs at hc with _ _ hlt
  · exact absurd hc (by decide)
  · exact absurd hc (by decide)
  · exact absurd hc (by decide)
  · exact absurd hc (by decide)
  · exact absurd hc (by decide)
  · exact hlt (List.mem_singleton.mp hc).symm

theorem suffix_of_notMem {c : Char} (hc : c ∉ s) (h : c :: w <:+ s ++ t) : c :: w <:+ t := by
  induction s with
  | nil => exact h
  | cons a s ih =>
      obtain ⟨hca, hcs⟩ : c ≠ a ∧ c ∉ s := by simpa using hc
      rcases List.suffix_cons_iff.mp h with heq | hsuffix
      · exact absurd (List.cons.inj heq).1 hca
      · exact ih hcs hsuffix

/-- The only tag inside a paragraph is the line break. -/
theorem br_of_lt (hls : ∀ l ∈ ls, '<' ∉ l) (h : '<' :: w <:+ "<br>".toList.intercalate ls) :
    ['b', 'r', '>'] <+: w := by
  induction ls with
  | nil => exact absurd (List.suffix_nil.mp h) (List.cons_ne_nil _ _)
  | cons l ls ih =>
      obtain ⟨hl, hls⟩ := List.forall_mem_cons.mp hls
      rcases ls with _ | ⟨l₁, ls⟩
      · rw [List.intercalate_singleton] at h
        exact absurd (h.subset List.mem_cons_self) hl
      · rw [List.intercalate_cons_cons, List.append_assoc] at h
        rcases List.suffix_cons_iff.mp (suffix_of_notMem hl h) with heq | hsuffix
        · rw [(List.cons.inj heq).2]
          exact List.prefix_append _ _
        · exact ih hls (suffix_of_notMem (s := ['b', 'r', '>']) (by decide) hsuffix)

theorem paragraphEnd_not_infix (hls : ∀ l ∈ ls, '<' ∉ l) :
    ¬paragraphEnd <:+: "<br>".toList.intercalate ls := by
  rintro ⟨before, after, h⟩
  have hsuffix : '<' :: (['/', 'p', '>'] ++ after) <:+ "<br>".toList.intercalate ls :=
    ⟨before, by rw [← h, List.append_assoc]; rfl⟩
  have htag := br_of_lt hls hsuffix
  cases (List.cons_prefix_cons.mp htag).1

theorem textToHTML_eq (subject text : Text) : ∃ start finish, textToHTML subject text = start ++
    (splitParagraphs text).flatMap (fun paragraph =>
      paragraphStart ++ paragraphContent paragraph ++ paragraphEnd) ++ finish :=
  ⟨_, _, rfl⟩

/-- A line of the text is in one paragraph of the body. -/
theorem inParagraph_textToHTML (subject : Text) (hblank : trimSpace w ≠ []) (hr : '\r' ∉ w)
    (hn : '\n' ∉ w) (h : w <:+: t) : InParagraph (escapeString w) (textToHTML subject t) := by
  obtain ⟨paragraph, hparagraph, hw⟩ := exists_paragraph hblank hr hn h
  obtain ⟨line, hline, hw⟩ := exists_infix_splitOn hn hw
  obtain ⟨start, finish, heq⟩ := textToHTML_eq subject t
  obtain ⟨before, after, hbody⟩ := infix_flatMap hparagraph fun paragraph =>
    paragraphStart ++ paragraphContent paragraph ++ paragraphEnd
  refine ⟨start ++ before, paragraphContent paragraph, after ++ finish, ?_, ?_, ?_⟩
  · rw [heq, ← hbody]
    simp only [List.append_assoc]
  · exact (hw.flatMap _).trans (infix_intercalate (List.mem_map_of_mem hline))
  · apply paragraphEnd_not_infix
    intro l hl
    obtain ⟨line, _, rfl⟩ := List.mem_map.mp hl
    exact lt_notMem_escapeString line

end markup

section link
variable {lib : MailLibraries} {settings : Settings} {override : Option TemplateOverride}
  {ctx : TemplateContext} {rendered : RenderedTemplate} {values : Values} {name template : Text}

/-- The value of a placeholder stands in the result. -/
theorem infix_substitute (h : templateContainsPlaceholder template name = true) :
    values.get name <:+: substitute values template :=
  infix_flatMap (of_decide_eq_true h) (Piece.text values)

/-- The link is in the message, before the footer. -/
theorem infix_withLink (htrim : trimSpace ctx.secureLink = ctx.secureLink) (template : Text) :
    ctx.secureLink <:+:
      withLink ctx template (substitute (placeholderValues lib ctx) template) := by
  unfold withLink
  split_ifs with hplaced
  · have hvalue : (placeholderValues lib ctx).get "secure_link".toList = ctx.secureLink := htrim
    rw [← hvalue]
    exact infix_substitute hplaced
  · exact (List.suffix_append _ _).isInfix

/-- What `Render` puts together. -/
theorem render_eq (h : render lib settings override ctx = .ok rendered) :
    ∃ template footer, rendered.text =
        withLink ctx template (substitute (placeholderValues lib ctx) template) ++ footer ∧
      rendered.html = textToHTML rendered.subject rendered.text := by
  simp only [render, bind_eq_ok] at h
  obtain ⟨_, _, subject, _, _, _, message, hmessage, footer, _, h⟩ := h
  cases h
  rw [renderPlaceholders_eq_substitute hmessage]
  exact ⟨_, footer, rfl, rfl⟩

/-- Every message that is rendered delivers a link that is written in one line without blanks
around it: in the text as it is, and in one paragraph of the HTML escaped. -/
theorem render_delivers_link (h : render lib settings override ctx = .ok rendered)
    (hblank : trimSpace ctx.secureLink ≠ []) (htrim : trimSpace ctx.secureLink = ctx.secureLink)
    (hr : '\r' ∉ ctx.secureLink) (hn : '\n' ∉ ctx.secureLink) :
    ctx.secureLink <:+: rendered.text ∧
      InParagraph (escapeString ctx.secureLink) rendered.html := by
  obtain ⟨template, footer, htext, hhtml⟩ := render_eq h
  have hlink : ctx.secureLink <:+: rendered.text := by
    rw [htext]
    exact (infix_withLink htrim template).trans (List.prefix_append _ _).isInfix
  refine ⟨hlink, ?_⟩
  rw [hhtml]
  exact inParagraph_textToHTML rendered.subject hblank hr hn hlink

/-- A message that does not place the link itself. -/
def sampleContext : TemplateContext where
  secureLink := "https://example.com/s#t".toList
  secretTitle := []
  recipientName := []
  recipientEmail := []
  senderName := []
  expiresAt := zeroTime
  expiresIn := []
  productName := []
  supportEmail := []

theorem render_delivers_link_sample : ∃ rendered,
    render sampleMailLibraries sampleSender.toSettings (some ⟨['s'], ['m'], ['f']⟩) sampleContext =
      .ok rendered ∧
    sampleContext.secureLink <:+: rendered.text ∧
    InParagraph (escapeString sampleContext.secureLink) rendered.html := by
  have hok : (render sampleMailLibraries sampleSender.toSettings (some ⟨['s'], ['m'], ['f']⟩)
      sampleContext).toOption.isSome := by
    decide +kernel
  cases hrender : render sampleMailLibraries sampleSender.toSettings (some ⟨['s'], ['m'], ['f']⟩)
      sampleContext with
  | error e =>
      rw [hrender] at hok
      cases hok
  | ok rendered =>
      exact ⟨rendered, rfl, render_delivers_link hrender (by decide +kernel) (by decide +kernel)
        (by decide +kernel) (by decide +kernel)⟩

end link
end SecureShare.Email
