import SchemaDesign.Ddl.Scan

/-! Cutting DDL text into statements. The segments of a text follow one another without a gap or an
overlap: text between statements, statements with a balanced body, and statements that never close. -/
namespace SchemaDesign.Ddl

def ifNotExists (s : List Char) : Option (List Char) := do
  gap (← phrase ["IF".toList, "NOT".toList, "EXISTS".toList] s)

/-- A name, or the last of two with a point between them. -/
def qualifiedName (s : List Char) : Option (List Char × List Char) := do
  let (first, rest) ← name s
  match (mark '.' rest).bind name with
  | some second => return second
  | none => return (first, rest)

theorem qualifiedName_suffix {s found r : List Char} (h : qualifiedName s = some (found, r)) :
    r <:+ s := by
  obtain ⟨⟨first, rest⟩, hn, h⟩ := Option.bind_eq_some_iff.1 h
  have hs := name_suffix hn
  cases hq : (mark '.' rest).bind name with
  | none => simp [hq] at h; exact h.2 ▸ hs
  | some second =>
    obtain ⟨t, ht, h2⟩ := Option.bind_eq_some_iff.1 hq
    simp [hq] at h
    subst h
    exact ((name_suffix h2).trans (mark_suffix ht)).trans hs

/-- The head of a statement up to its opening parenthesis: the table's name and the text behind it. -/
def header (s : List Char) : Option (List Char × List Char) := do
  let s ← gap (← phrase ["CREATE".toList, "TABLE".toList] s)
  let (table, s) ← qualifiedName ((ifNotExists s).getD s)
  return (table, ← spacedMark '(' s)

theorem header_suffix {s table r : List Char} (h : header s = some (table, r)) :
    r <:+ s ∧ r.length < s.length := by
  obtain ⟨t, ht, h⟩ := Option.bind_eq_some_iff.1 h
  obtain ⟨u, hu, h⟩ := Option.bind_eq_some_iff.1 h
  obtain ⟨⟨name, v⟩, hv, h⟩ := Option.bind_eq_some_iff.1 h
  obtain ⟨w, hw, h⟩ := Option.bind_eq_some_iff.1 h
  cases h
  have hopt : (ifNotExists u).getD u <:+ u := by
    cases hi : ifNotExists u with
    | none => exact List.suffix_refl _
    | some i =>
      obtain ⟨j, hj, hi⟩ := Option.bind_eq_some_iff.1 hi
      exact (gap_suffix hi).1.trans (phrase_suffix hj)
  have hr := ((spacedMark_suffix hw).trans (qualifiedName_suffix hv)).trans hopt
  have ht := phrase_suffix ht
  have hu := gap_suffix hu
  exact ⟨(hr.trans hu.1).trans ht,
    Nat.lt_of_le_of_lt hr.length_le (Nat.lt_of_lt_of_le hu.2 ht.length_le)⟩

/-- A header found in a text: what stands before it, the header, its table, and what follows. -/
structure Found where
  before : List Char
  head : List Char
  table : List Char
  after : List Char

/-- The leftmost header. -/
def find? : List Char → Option Found
  | [] => none
  | c :: s =>
      match header (c :: s) with
      | some (table, after) => some ⟨[], (c :: s).take ((c :: s).length - after.length), table, after⟩
      | none => (find? s).map fun f => { f with before := c :: f.before }

theorem length_find? {s : List Char} {f : Found} (h : find? s = some f) :
    f.after.length < s.length := by
  fun_induction find? s generalizing f with
  | case1 => simp at h
  | case2 c s table after hh => cases h; exact (header_suffix hh).2
  | case3 c s _ ih =>
    obtain ⟨g, hg, rfl⟩ := Option.map_eq_some_iff.1 h
    have := ih hg
    simp; omega

/-- The text up to the parenthesis that closes the `depth + 1` open ones, and the text behind it. -/
def splitBody (depth : Nat) : List Char → Option (List Char × List Char)
  | [] => none
  | c :: s =>
      if c = '(' then (splitBody (depth + 1) s).map fun (body, rest) => (c :: body, rest)
      else if c = ')' then
        match depth with
        | 0 => some ([], s)
        | d + 1 => (splitBody d s).map fun (body, rest) => (c :: body, rest)
      else (splitBody depth s).map fun (body, rest) => (c :: body, rest)

theorem length_splitBody {depth : Nat} {s body rest : List Char}
    (h : splitBody depth s = some (body, rest)) : rest.length < s.length := by
  induction s generalizing depth body with
  | nil => simp [splitBody] at h
  | cons c s ih =>
    simp only [splitBody] at h
    split at h
    · obtain ⟨⟨b, r⟩, hb, he⟩ := Option.map_eq_some_iff.1 h
      cases he
      exact Nat.lt_succ_of_lt (ih hb)
    · split at h
      · split at h
        · cases h; simp
        · obtain ⟨⟨b, r⟩, hb, he⟩ := Option.map_eq_some_iff.1 h
          cases he
          exact Nat.lt_succ_of_lt (ih hb)
      · obtain ⟨⟨b, r⟩, hb, he⟩ := Option.map_eq_some_iff.1 h
        cases he
        exact Nat.lt_succ_of_lt (ih hb)

/-- What an unclosed statement takes up: the text to its semicolon or to the next header, whichever
comes first. -/
def splitUnclosed : List Char → List Char × List Char
  | [] => ([], [])
  | c :: s =>
      if (header (c :: s)).isSome then ([], c :: s)
      else if c = ';' then ([c], s)
      else
        let (taken, rest) := splitUnclosed s
        (c :: taken, rest)

theorem length_splitUnclosed (s : List Char) : (splitUnclosed s).2.length ≤ s.length := by
  fun_induction splitUnclosed s with
  | case1 => simp
  | case2 => simp
  | case3 => simp
  | case4 c s _ _ taken rest h ih => simp [h] at ih; simp; omega

inductive Segment where
  | between (text : List Char)
  | statement (head table body : List Char)
  | unclosed (text : List Char)
deriving DecidableEq

/-- The text that a segment covers. -/
def Segment.text : Segment → List Char
  | between text => text
  | statement head _ body => head ++ body ++ [')']
  | unclosed text => text

def segments (s : List Char) : List Segment :=
  match _h : find? s with
  | none => [.between s]
  | some f =>
      .between f.before ::
        match _hb : splitBody 0 f.after with
        | some (body, rest) => .statement f.head f.table body :: segments rest
        | none => .unclosed (f.head ++ (splitUnclosed f.after).1) :: segments (splitUnclosed f.after).2
termination_by s.length
decreasing_by
  · have := length_find? _h
    have := length_splitBody _hb
    omega
  · have := length_find? _h
    have := length_splitUnclosed f.after
    omega

end SchemaDesign.Ddl
