import SecureShare.Go.Json
import SecureShare.Library.JsonSize

/-!
# The body of a consume request

`handleConsume` reads a token and a password from at most 4096 bytes of JSON. A body that
carries both has to name the two members and to spell both values, so there is a shortest
one, and its size is that of the shortest spellings and 26 bytes more.
-/
namespace SecureShare.Http
open Go Go.Json
open Library.Json (Lexeme Token Part size weight memberSize members compacted decode shortest
  shortestSize objectTokens textOf)

structure ConsumeRequest where
  token : Text
  password : Text
  deriving DecidableEq, Repr

namespace ConsumeRequest

def names : List Text := ["token".toList, "password".toList]

/-- `DisallowUnknownFields` is set. -/
def setMember (r : ConsumeRequest) (m : Text × List Lexeme) : Option ConsumeRequest :=
  let name := fieldNamed names m.1
  if name = some "token".toList then (setString r.token m.2).map fun v => { r with token := v }
  else if name = some "password".toList then
    (setString r.password m.2).map fun v => { r with password := v }
  else none

/-- The body is a text in UTF-8 that is one value. -/
def decode (body : Text) : Option ConsumeRequest :=
  (scan body).bind fun ls =>
    match view ls with
    | .object ms => ms.foldlM setMember ⟨[], []⟩
    | .null => some ⟨[], []⟩
    | _ => none

def limit : ℕ := 4096

/-- `decodeJSON` with the limit of `handleConsume`. -/
def read (body : Text) : Option ConsumeRequest :=
  if limit < byteLength body then none else decode body

/-- The bytes that a body spends at least on the members that are not empty. -/
def need (r : ConsumeRequest) : ℕ :=
  (if r.token = [] then 0 else 11 + shortestSize r.token) +
    if r.password = [] then 0 else 14 + shortestSize r.password

/-- No white space, and the shortest spelling of both values. -/
def shortestTokens (r : ConsumeRequest) : List Token :=
  objectTokens [(shortest "token".toList, [.string (shortest r.token)]),
    (shortest "password".toList, [.string (shortest r.password)])]

def shortestBody (r : ConsumeRequest) : Text := textOf r.shortestTokens

end ConsumeRequest

theorem byteLength_eq_size (s : Text) : byteLength s = size s := by
  induction s with
  | nil => rfl
  | cons c s ih => rw [Library.Json.size_cons, ← ih, byteLength, List.foldr_cons, ← byteLength]

/-- A string variable keeps its value or takes one that was spelled out. -/
theorem setString_eq_some {current v : Text} {ls : List Lexeme}
    (h : setString current ls = some v) : v = current ∨ shortestSize v + 2 ≤ weight ls := by
  rw [setString] at h
  split at h
  case h_1 s hs =>
    obtain ⟨sp, ps, rest, rfl, hps⟩ := view_eq_string hs
    have hsize := Library.Json.shortestSize_decode_le ps
    rw [hps, Option.some.inj h] at hsize
    right
    rw [Library.Json.weight_cons, Token.size_string]
    omega
  case h_2 => exact .inl (Option.some.inj h).symm
  case h_3 => cases h

namespace ConsumeRequest

theorem memberSize_of_fieldNamed {key : List Part} {name : Text} (value : List Lexeme)
    (h : fieldNamed names (Library.Json.decode key) = some name) :
    name.length + 4 + weight value ≤ memberSize (key, value) := by
  have hlength := Library.Json.length_le_shortestSize (Library.Json.decode key)
  have hkey := Library.Json.shortestSize_decode_le key
  rw [length_of_fieldNamed h] at hlength
  simp only [memberSize, Token.size_string]
  omega

/-- One member pays for what it sets. -/
theorem need_setMember {r r' : ConsumeRequest} {m : List Part × List Lexeme}
    (h : r.setMember (Library.Json.decode m.1, m.2) = some r') :
    r'.need ≤ r.need + memberSize m := by
  obtain ⟨key, value⟩ := m
  rw [setMember] at h
  split_ifs at h with htoken hpassword
  · obtain ⟨v, hv, rfl⟩ := Option.map_eq_some_iff.mp h
    have hmember := memberSize_of_fieldNamed value htoken
    have hlength : "token".toList.length = 5 := rfl
    rcases setString_eq_some hv with rfl | hsize
    · exact Nat.le_add_right _ _
    · dsimp only at hmember hsize
      simp only [need]
      split_ifs <;> omega
  · obtain ⟨v, hv, rfl⟩ := Option.map_eq_some_iff.mp h
    have hmember := memberSize_of_fieldNamed value hpassword
    have hlength : "password".toList.length = 8 := rfl
    rcases setString_eq_some hv with rfl | hsize
    · exact Nat.le_add_right _ _
    · dsimp only at hmember hsize
      simp only [need]
      split_ifs <;> omega

theorem need_foldlM {r r' : ConsumeRequest} {ms : List (List Part × List Lexeme)}
    (h : (ms.map fun m => (Library.Json.decode m.1, m.2)).foldlM setMember r = some r') :
    r'.need ≤ r.need + (ms.map memberSize).sum := by
  induction ms generalizing r with
  | nil =>
      cases h
      exact Nat.le_add_right _ _
  | cons m ms ih =>
      rw [List.map_cons, List.foldlM_cons] at h
      obtain ⟨u, hu, h⟩ := Option.bind_eq_some_iff.mp h
      have hstep := need_setMember hu
      have hrest := ih h
      rw [List.map_cons, List.sum_cons]
      omega

theorem need_le_byteLength {body : Text} {r : ConsumeRequest} (h : decode body = some r)
    (hneed : 0 < r.need) : r.need + 1 ≤ byteLength body := by
  obtain ⟨ls, hls, h⟩ := Option.bind_eq_some_iff.mp h
  have hsize := Library.Json.weight_le_size (lex_of_scan hls)
  rw [byteLength_eq_size]
  split at h
  case h_1 ms hview =>
    obtain ⟨_, rfl⟩ := view_eq_object hview
    have hsum : r.need ≤ 0 + ((members ls).map memberSize).sum := need_foldlM h
    have hmembers : members ls ≠ [] := by
      intro hnil
      rw [hnil] at hsum
      exact absurd (hneed.trans_le hsum) (lt_irrefl 0)
    have := Library.Json.memberSize_le_weight hmembers
    omega
  case h_2 =>
    cases h
    exact absurd hneed (lt_irrefl 0)
  case h_3 => cases h

theorem setString_shortest (current v : Text) :
    setString current (compacted [.string (shortest v)]) = some v := by
  have hview : view (compacted [.string (shortest v)]) = .string (Library.Json.decode (shortest v)) :=
    rfl
  rw [setString, hview, Library.Json.decode_shortest]

private theorem isValue_member {r : ConsumeRequest} :
    ∀ m ∈ [(shortest "token".toList, [Token.string (shortest r.token)]),
      (shortest "password".toList, [.string (shortest r.password)])],
      Library.Json.IsValue 0 m.2 := by
  intro m hm
  simp only [List.mem_cons, List.not_mem_nil, or_false] at hm
  rcases hm with rfl | rfl <;> rfl

theorem isValue_shortest (r : ConsumeRequest) : Library.Json.IsValue 1 r.shortestTokens :=
  Library.Json.IsValue.object isValue_member

theorem view_shortest (r : ConsumeRequest) : view (compacted r.shortestTokens) =
    .object [("token".toList, compacted [.string (shortest r.token)]),
      ("password".toList, compacted [.string (shortest r.password)])] := by
  have hmembers : members (compacted r.shortestTokens) =
      [(shortest "token".toList, compacted [.string (shortest r.token)]),
        (shortest "password".toList, compacted [.string (shortest r.password)])] :=
    Library.Json.members_objectTokens isValue_member
  have hview : view (compacted r.shortestTokens) = .object
      ((members (compacted r.shortestTokens)).map fun m => (Library.Json.decode m.1, m.2)) := rfl
  rw [hview, hmembers, List.map_cons, List.map_cons, List.map_nil, Library.Json.decode_shortest,
    Library.Json.decode_shortest]

theorem decode_shortestBody (r : ConsumeRequest) : decode r.shortestBody = some r := by
  have hvalue : Library.Json.IsValue maxNestingDepth r.shortestTokens :=
    r.isValue_shortest.mono (by decide)
  have htoken : fieldNamed names "token".toList = some "token".toList := by decide
  have hpassword : fieldNamed names "password".toList = some "password".toList := by decide
  rw [decode, shortestBody, scan_textOf hvalue, Option.bind_some, view_shortest]
  simp only [List.foldlM_cons, List.foldlM_nil, setMember, htoken, hpassword, if_true,
    setString_shortest, Option.map_some]
  rfl

theorem byteLength_shortestBody (r : ConsumeRequest) :
    byteLength r.shortestBody = 26 + shortestSize r.token + shortestSize r.password := by
  have htoken : shortestSize "token".toList = 5 := by decide
  have hpassword : shortestSize "password".toList = 8 := by decide
  have hpunctuation : ∀ t ∈ [Token.beginObject, .colon, .comma, .endObject], size t.text = 1 := by
    decide
  simp only [List.forall_mem_cons] at hpunctuation
  rw [byteLength_eq_size, shortestBody, shortestTokens]
  simp only [objectTokens, Library.Json.joinCommas, Library.Json.memberTokens, List.map_cons,
    List.map_nil, List.cons_append, List.nil_append, Library.Json.textOf_cons,
    Library.Json.textOf_nil, Library.Json.size_append, Library.Json.size_nil, Token.size_string,
    Library.Json.size_shortest, htoken, hpassword, hpunctuation]
  omega

/-- No body that carries two values is shorter. -/
theorem byteLength_shortestBody_le {r : ConsumeRequest} (htoken : r.token ≠ [])
    (hpassword : r.password ≠ []) {body : Text} (h : decode body = some r) :
    byteLength r.shortestBody ≤ byteLength body := by
  have hneed : r.need = 11 + shortestSize r.token + (14 + shortestSize r.password) := by
    rw [need, if_neg htoken, if_neg hpassword]
  have := need_le_byteLength h (by omega)
  rw [byteLength_shortestBody]
  omega

/-- A request fits the limit exactly if its shortest body does. -/
theorem exists_read_iff {r : ConsumeRequest} (htoken : r.token ≠ []) (hpassword : r.password ≠ []) :
    (∃ body, read body = some r) ↔ byteLength r.shortestBody ≤ limit := by
  constructor
  · rintro ⟨body, h⟩
    rw [read] at h
    split_ifs at h with hlimit
    have := byteLength_shortestBody_le htoken hpassword h
    omega
  · intro h
    refine ⟨r.shortestBody, ?_⟩
    rw [read, if_neg (by omega), decode_shortestBody]

end ConsumeRequest
end SecureShare.Http
