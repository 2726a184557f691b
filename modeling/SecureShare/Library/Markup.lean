import Mathlib.Data.List.Basic

/-!
# Tags and character references

A reader of markup: what stands between angle brackets is a tag, an ampersand that a
reference of the table follows is the character of the reference, and all else is text. A
text that is written with references is read as it is, so it adds no tag.
-/
namespace SecureShare.Library.Markup

inductive Token where
  | tag (content : List Char)
  | char (c : Char)
  deriving DecidableEq, Repr

/-- The references without the ampersand, and what they stand for. -/
abbrev References := List (List Char × Char)

/-- In the text, where so many characters still belong to a reference, or in a tag, whose
quoted values can hold an angle bracket. -/
inductive Mode where
  | text (skipped : ℕ)
  | tag (content : List Char) (quoted : Bool)
  deriving DecidableEq, Repr

/-- The reference at the front, and its length. -/
def reference (refs : References) (s : List Char) : Option (Char × ℕ) :=
  (refs.find? fun r => r.1.isPrefixOf s).map fun r => (r.2, r.1.length)

@[grind =] def tokensFrom (refs : References) : Mode → List Char → List Token
  | _, [] => []
  | .text (n + 1), _ :: s => tokensFrom refs (.text n) s
  | .text 0, c :: s =>
    if c = '<' then tokensFrom refs (.tag [] false) s
    else if c = '&' then
      match reference refs s with
      | some (d, n) => .char d :: tokensFrom refs (.text n) s
      | none => .char c :: tokensFrom refs (.text 0) s
    else .char c :: tokensFrom refs (.text 0) s
  | .tag content quoted, c :: s =>
    if c = '>' ∧ quoted = false then .tag content :: tokensFrom refs (.text 0) s
    else tokensFrom refs (.tag (content ++ [c]) (quoted ^^ decide (c = '\u0022'))) s

def tokens (refs : References) (s : List Char) : List Token := tokensFrom refs (.text 0) s

/-- A tag as it is written. -/
def written (content : List Char) : List Char := '<' :: content ++ ['>']

/-- Whether a quoted value is open at the end of the content. -/
def openQuote (quoted : Bool) (content : List Char) : Bool :=
  content.foldl (fun q c => q ^^ decide (c = '\u0022')) quoted

/-- What can stand in a tag and ends with it. -/
def isContent (content : List Char) : Bool :=
  content.all (· ≠ '>') && !openQuote false content

/-- Each character is written as it is, or with a reference for it. -/
def Escapes (refs : References) (escape : Char → List Char) : Prop :=
  ∀ c, (escape c = [c] ∧ c ≠ '<' ∧ c ≠ '&') ∨
    ∃ name, escape c = '&' :: name ∧ ∀ s, reference refs (name ++ s) = some (c, name.length)

variable {refs : References} {escape : Char → List Char} {content : List Char}

@[simp] theorem tokens_nil (refs : References) : tokens refs [] = [] := rfl

theorem tokensFrom_content (hcontent : content.all (· ≠ '>') = true) (before s : List Char)
    (quoted : Bool) : tokensFrom refs (.tag before quoted) (content ++ s) =
      tokensFrom refs (.tag (before ++ content) (openQuote quoted content)) s := by
  induction content generalizing before quoted with
  | nil => simp [openQuote]
  | cons c content ih =>
      obtain ⟨hc, hrest⟩ : c ≠ '>' ∧ content.all (· ≠ '>') = true := by simpa using hcontent
      rw [List.cons_append, tokensFrom, if_neg fun h => hc h.1, ih hrest]
      simp [openQuote]

/-- A tag is read as it is written. -/
theorem tokens_written (h : isContent content = true) (s : List Char) :
    tokens refs (written content ++ s) = .tag content :: tokens refs s := by
  obtain ⟨hcontent, hquote⟩ : content.all (· ≠ '>') = true ∧ openQuote false content = false := by
    simpa [isContent] using h
  unfold tokens written
  rw [List.cons_append, List.cons_append, tokensFrom, if_pos rfl, List.append_assoc,
    tokensFrom_content hcontent, hquote, List.cons_append, tokensFrom, if_pos ⟨rfl, rfl⟩]
  rfl

theorem tokens_flatMap_written {contents : List (List Char)} (h : contents.all isContent = true)
    (s : List Char) :
    tokens refs (contents.flatMap written ++ s) = contents.map .tag ++ tokens refs s := by
  induction contents with
  | nil => rfl
  | cons content contents ih =>
      obtain ⟨hcontent, hrest⟩ : isContent content = true ∧ contents.all isContent = true := by
        simpa using h
      rw [List.flatMap_cons, List.append_assoc, tokens_written hcontent, ih hrest]
      rfl

/-- The rest of a reference is skipped. -/
theorem tokensFrom_skipped (name s : List Char) :
    tokensFrom refs (.text name.length) (name ++ s) = tokens refs s := by
  induction name with
  | nil => rfl
  | cons c name ih => exact ih

/-- A text is read back, and its characters are no tags. -/
theorem tokens_escape (h : Escapes refs escape) (text s : List Char) :
    tokens refs (text.flatMap escape ++ s) = text.map .char ++ tokens refs s := by
  induction text with
  | nil => rfl
  | cons c text ih =>
      rw [List.flatMap_cons, List.append_assoc, List.map_cons, List.cons_append, ← ih]
      rcases h c with ⟨hc, hopen, href⟩ | ⟨name, hc, hname⟩
      · rw [hc, tokens, List.singleton_append, tokensFrom, if_neg hopen, if_neg href]
        rfl
      · rw [hc, tokens, List.cons_append, tokensFrom, if_neg (by decide), if_pos rfl, hname]
        dsimp only
        rw [tokensFrom_skipped]

end SecureShare.Library.Markup
