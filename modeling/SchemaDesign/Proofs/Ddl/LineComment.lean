import SchemaDesign.Proofs.Ddl.Comment
import SchemaDesign.Proofs.Ddl.Report

/-! Line comments. Block comments go first, wherever they begin: a line comment that leaves one open
takes what stands up to the next closing mark with it, line breaks and statements included. Every other
line comment is as if it were not there. -/
namespace SchemaDesign.Ddl

variable {s t a c rest : List Char}

theorem head?_append_newline {x : Char} (hx : x ≠ '\n') (h : (s ++ '\n' :: t).head? = some x) :
    s.head? = some x := by
  cases s with
  | nil => exact absurd (Option.some.inj h).symm hx
  | cons y s => exact h

theorem afterBlock?_cons {x : Char} (h : ¬ (x = '*' ∧ s.head? = some '/')) :
    afterBlock? (x :: s) = afterBlock? s := by
  rw [afterBlock?]
  rintro r rfl rfl
  exact h ⟨rfl, rfl⟩

theorem afterBlock?_append (h : afterBlock? s = some rest) (t : List Char) :
    afterBlock? (s ++ t) = some (rest ++ t) := by
  fun_induction afterBlock? s with
  | case1 => cases h
  | case2 r =>
    cases h
    rfl
  | case3 x r hnot ih =>
    have hr : r ≠ [] := by
      rintro rfl
      cases h
    have hhead : ¬ (x = '*' ∧ (r ++ t).head? = some '/') := by
      rw [List.head?_append_of_ne_nil _ hr]
      exact not_head?_of_forall hnot
    rw [List.cons_append, afterBlock?_cons hhead, ih h]

/-- A closing mark does not reach across a line break. -/
theorem afterBlock?_append_newline (h : afterBlock? s = none) (t : List Char) :
    afterBlock? (s ++ '\n' :: t) = afterBlock? t := by
  fun_induction afterBlock? s with
  | case1 => exact afterBlock?_cons fun h => absurd h.1 (by decide)
  | case2 r => cases h
  | case3 x r hnot ih =>
    have hhead : ¬ (x = '*' ∧ (r ++ '\n' :: t).head? = some '/') :=
      fun h => not_head?_of_forall hnot ⟨h.1, head?_append_newline (by decide) h.2⟩
    rw [List.cons_append, afterBlock?_cons hhead, ih h]

/-- The mark that closes is the first one. -/
theorem afterBlock?_closing (h : ¬ Has '*' '/' s) :
    afterBlock? (s ++ '*' :: '/' :: rest) = some rest := by
  induction s with
  | nil => rfl
  | cons x s ih =>
    rw [has_cons, not_or] at h
    rw [List.cons_append, afterBlock?_cons, ih h.2]
    rintro ⟨hx, hhead⟩
    cases s with
    | nil => exact absurd (Option.some.inj hhead) (by decide)
    | cons y s => exact h.1 ⟨hx, hhead⟩

theorem withoutBlocks_unclosed (h : afterBlock? s = none) :
    withoutBlocks ('/' :: '*' :: s) = '/' :: withoutBlocks ('*' :: s) := by
  rw [withoutBlocks]
  split
  · next hrest =>
    rw [h] at hrest
    cases hrest
  · rfl

theorem withoutLineComments_cons {x : Char} (h : ¬ (x = '-' ∧ s.head? = some '-')) :
    withoutLineComments (x :: s) = x :: withoutLineComments s := by
  rw [withoutLineComments]
  rintro r rfl rfl
  exact h ⟨rfl, rfl⟩

theorem withoutLineComments_append (ha : ¬ Has '-' '-' a) (hlast : a.getLast? ≠ some '-') :
    withoutLineComments (a ++ s) = a ++ withoutLineComments s := by
  induction a with
  | nil => rfl
  | cons x a ih =>
    rw [has_cons, not_or] at ha
    cases a with
    | nil => exact withoutLineComments_cons fun h => hlast (congrArg some h.1)
    | cons y a =>
      have hhead : ¬ (x = '-' ∧ (y :: a ++ s).head? = some '-') := ha.1
      rw [List.cons_append, withoutLineComments_cons hhead, ih ha.2 hlast]
      rfl

/-- A line comment runs to its line break, which stays. -/
theorem withoutLineComments_dashes (hc : '\n' ∉ c) (s : List Char) :
    withoutLineComments ('-' :: '-' :: (c ++ '\n' :: s)) = '\n' :: withoutLineComments s := by
  have hdrop : (c ++ '\n' :: s).dropWhile (· != '\n') = '\n' :: s := by
    rw [List.dropWhile_append_of_pos fun x hx => by simpa using ne_of_mem_of_not_mem hx hc]
    rfl
  rw [withoutLineComments, hdrop, withoutLineComments_cons fun h => absurd h.1 (by decide)]

/-- Text behind two dashes is as good as the text without its first characters, if these hold no line
break. -/
theorem withoutLineComments_dashes_append (hc : '\n' ∉ c) (s : List Char) :
    withoutLineComments ('-' :: '-' :: (c ++ s)) = withoutLineComments ('-' :: '-' :: s) := by
  rw [withoutLineComments, withoutLineComments,
    List.dropWhile_append_of_pos fun x hx => by simpa using ne_of_mem_of_not_mem hx hc]

/-- A block comment begins in the text and is not closed in it. -/
def LeavesOpen (c : List Char) : Prop := Has '/' '*' (withoutBlocks c)

instance (c : List Char) : Decidable (LeavesOpen c) :=
  inferInstanceAs (Decidable (Has '/' '*' (withoutBlocks c)))

theorem newline_notMem_afterBlock? (h : afterBlock? s = some rest) (hs : '\n' ∉ s) : '\n' ∉ rest := by
  obtain ⟨a, rfl⟩ := afterBlock?_eq_some h
  exact fun hmem =>
    hs (List.mem_append_right _ (List.mem_cons_of_mem _ (List.mem_cons_of_mem _ hmem)))

theorem newline_notMem_withoutBlocks (h : '\n' ∉ c) : '\n' ∉ withoutBlocks c := by
  fun_induction withoutBlocks c with
  | case1 => exact h
  | case2 s rest hrest ih =>
    have hs : '\n' ∉ s := fun hmem => h (List.mem_cons_of_mem _ (List.mem_cons_of_mem _ hmem))
    simpa using ih (newline_notMem_afterBlock? hrest hs)
  | case3 s hnone ih => simpa using ih fun hmem => h (List.mem_cons_of_mem _ hmem)
  | case4 x s _ ih =>
    rw [List.mem_cons, not_or] at h ⊢
    exact ⟨h.1, ih h.2⟩

/-- A line that leaves no block comment open, or that nothing closes, stays apart from what follows. -/
theorem withoutBlocks_append_newline (h : LeavesOpen c → ¬ Has '*' '/' t) :
    withoutBlocks (c ++ '\n' :: t) = withoutBlocks c ++ '\n' :: withoutBlocks t := by
  unfold LeavesOpen at h
  fun_induction withoutBlocks c with
  | case1 => exact withoutBlocks_cons fun h => absurd h.1 (by decide)
  | case2 s rest hrest ih =>
    rw [List.cons_append, List.cons_append, withoutBlocks_closed (afterBlock?_append hrest _),
      ih fun hopen => h (has_cons.2 (.inr hopen))]
    rfl
  | case3 s hnone ih =>
    have hstar : (withoutBlocks ('*' :: s)).head? = some '*' := by
      rw [withoutBlocks_cons fun h => absurd h.1 (by decide)]
      rfl
    have ht : ¬ Has '*' '/' t := h (has_cons.2 (.inl ⟨rfl, hstar⟩))
    have hrest := (afterBlock?_append_newline hnone t).trans (afterBlock?_eq_none.2 ht)
    rw [List.cons_append, List.cons_append, withoutBlocks_unclosed hrest]
    exact congrArg _ (ih fun _ => ht)
  | case4 x s hnot ih =>
    have hhead : ¬ (x = '/' ∧ (s ++ '\n' :: t).head? = some '*') :=
      fun h => not_head?_of_forall hnot ⟨h.1, head?_append_newline (by decide) h.2⟩
    rw [List.cons_append, withoutBlocks_cons hhead, ih fun hopen => h (has_cons.2 (.inr hopen))]
    rfl

/-- A block comment that a line leaves open goes on to the first mark that closes it. -/
theorem withoutBlocks_append_newline_of_leavesOpen (hopen : LeavesOpen c) (hc : '\n' ∉ c)
    (ht : afterBlock? t = some rest) :
    ∃ d, '\n' ∉ d ∧ withoutBlocks (c ++ '\n' :: t) = d ++ withoutBlocks rest := by
  unfold LeavesOpen at hopen
  fun_induction withoutBlocks c with
  | case1 => exact absurd hopen not_has_nil
  | case2 s r hr ih =>
    have hs : '\n' ∉ s := fun hmem => hc (List.mem_cons_of_mem _ (List.mem_cons_of_mem _ hmem))
    obtain ⟨d, hd, heq⟩ := ih ((has_cons.1 hopen).resolve_left fun h => absurd h.1 (by decide))
      (newline_notMem_afterBlock? hr hs)
    refine ⟨' ' :: d, by simpa using hd, ?_⟩
    rw [List.cons_append, List.cons_append, withoutBlocks_closed (afterBlock?_append hr _), heq]
    rfl
  | case3 s hnone ih =>
    have hrest := (afterBlock?_append_newline hnone t).trans ht
    refine ⟨[' '], by decide, ?_⟩
    rw [List.cons_append, List.cons_append, withoutBlocks_closed hrest]
    rfl
  | case4 x s hnot ih =>
    have hx : '\n' ≠ x ∧ '\n' ∉ s := by simpa using hc
    have hwithin : Has '/' '*' (withoutBlocks s) := (has_cons.1 hopen).resolve_left
      fun h => not_head?_of_forall hnot ⟨h.1, head?_withoutBlocks (by decide) h.2⟩
    obtain ⟨d, hd, heq⟩ := ih hwithin hx.2
    have hhead : ¬ (x = '/' ∧ (s ++ '\n' :: t).head? = some '*') :=
      fun h => not_head?_of_forall hnot ⟨h.1, head?_append_newline (by decide) h.2⟩
    refine ⟨x :: d, by simpa using ⟨hx.1, hd⟩, ?_⟩
    rw [List.cons_append, withoutBlocks_cons hhead, heq]
    rfl

/-- Text in which no comment begins, and behind which two dashes begin one. -/
structure Code (a : List Char) : Prop where
  dashes : ¬ Has '-' '-' a
  openings : ¬ Has '/' '*' a
  last : a.getLast? ≠ some '-'

instance (a : List Char) : Decidable (Code a) :=
  decidable_of_iff (¬ Has '-' '-' a ∧ ¬ Has '/' '*' a ∧ a.getLast? ≠ some '-')
    ⟨fun h => ⟨h.1, h.2.1, h.2.2⟩, fun h => ⟨h.dashes, h.openings, h.last⟩⟩

/-- Of a line that begins with code, only what stands behind the code is to be looked at. -/
theorem Code.withoutComments_append (h : Code a) (hs : s.head? ≠ some '*') :
    withoutComments (a ++ s) = a ++ withoutComments s := by
  rw [withoutComments, withoutBlocks_append h.openings hs, withoutLineComments_append h.dashes h.last]
  rfl

theorem withoutBlocks_dashes (s : List Char) :
    withoutBlocks ('-' :: '-' :: s) = '-' :: '-' :: withoutBlocks s := by
  rw [withoutBlocks_cons fun h => absurd h.1 (by decide),
    withoutBlocks_cons fun h => absurd h.1 (by decide)]

theorem withoutComments_newline (s : List Char) :
    withoutComments ('\n' :: s) = '\n' :: withoutComments s := by
  rw [withoutComments, withoutBlocks_cons fun h => absurd h.1 (by decide),
    withoutLineComments_cons fun h => absurd h.1 (by decide)]
  rfl

theorem withoutComments_lineComment (hc : '\n' ∉ c) (h : LeavesOpen c → ¬ Has '*' '/' t) :
    withoutComments ('-' :: '-' :: (c ++ '\n' :: t)) = withoutComments ('\n' :: t) := by
  rw [withoutComments_newline, withoutComments, withoutBlocks_dashes, withoutBlocks_append_newline h,
    withoutLineComments_dashes (newline_notMem_withoutBlocks hc)]
  rfl

theorem withoutComments_lineComment_of_leavesOpen (hc : '\n' ∉ c) (hopen : LeavesOpen c)
    (ht : afterBlock? t = some rest) :
    withoutComments ('-' :: '-' :: (c ++ '\n' :: t)) = withoutComments ('-' :: '-' :: rest) := by
  obtain ⟨d, hd, heq⟩ := withoutBlocks_append_newline_of_leavesOpen hopen hc ht
  rw [withoutComments, withoutComments, withoutBlocks_dashes, withoutBlocks_dashes, heq,
    withoutLineComments_dashes_append hd]

/-- What is read behind code depends on the text behind it without its comments. -/
theorem Code.read_append_congr {x y z : String} (h : Code x.toList) (hy : y.toList.head? ≠ some '*')
    (hz : z.toList.head? ≠ some '*') (hyz : source y = source z) (ids : TableId.Supply) :
    read ids (x ++ y) = read ids (x ++ z) := by
  have hsource : source (x ++ y) = source (x ++ z) := by
    unfold source at hyz ⊢
    rw [String.toList_append, String.toList_append, h.withoutComments_append hy,
      h.withoutComments_append hz, hyz]
  rw [read_eq, read_eq, hsource]

section Reading

variable {x y z : String}

theorem head?_dashes (x : String) : ("--" ++ x).toList.head? ≠ some '*' := by
  rw [String.toList_append]
  exact fun h => absurd (Option.some.inj h) (by decide)

theorem head?_newline (x : String) : ("\n" ++ x).toList.head? ≠ some '*' := by
  rw [String.toList_append]
  exact fun h => absurd (Option.some.inj h) (by decide)

theorem Code.read_apart (hx : Code x.toList) (hy : '\n' ∉ y.toList)
    (hz : LeavesOpen y.toList → ¬ Has '*' '/' z.toList) (ids : TableId.Supply) :
    read ids (x ++ "--" ++ y ++ "\n" ++ z) = read ids (x ++ "\n" ++ z) := by
  have hsource : source ("--" ++ (y ++ ("\n" ++ z))) = source ("\n" ++ z) := by
    simp only [source, String.toList_append]
    exact withoutComments_lineComment hy hz
  simp only [String.append_assoc]
  exact hx.read_append_congr (head?_dashes _) (head?_newline _) hsource ids

theorem Code.read_through (hx : Code x.toList) (hy : '\n' ∉ y.toList) (hopen : LeavesOpen y.toList)
    (hz : ¬ Has '*' '/' z.toList) (rest : String) (ids : TableId.Supply) :
    read ids (x ++ "--" ++ y ++ "\n" ++ (z ++ "*/" ++ rest)) = read ids (x ++ "--" ++ rest) := by
  have hsource : source ("--" ++ (y ++ ("\n" ++ (z ++ ("*/" ++ rest))))) = source ("--" ++ rest) := by
    simp only [source, String.toList_append]
    exact withoutComments_lineComment_of_leavesOpen hy hopen (afterBlock?_closing hz)
  simp only [String.append_assoc]
  exact hx.read_append_congr (head?_dashes _) (head?_dashes _) hsource ids

end Reading

/-- A line comment reads as its line break alone, unless it leaves a block comment open that the text
behind it closes; then it reads as a comment that goes on behind the closing mark. The comments that
make no difference, whatever stands before and behind them, are those that leave nothing open. -/
theorem read_lineComment {c : String} (hc : '\n' ∉ c.toList) :
    (∀ ids a b, Code a.toList → (LeavesOpen c.toList → ¬ Has '*' '/' b.toList) →
      read ids (a ++ "--" ++ c ++ "\n" ++ b) = read ids (a ++ "\n" ++ b)) ∧
    (∀ ids a b rest, Code a.toList → LeavesOpen c.toList → ¬ Has '*' '/' b.toList →
      read ids (a ++ "--" ++ c ++ "\n" ++ (b ++ "*/" ++ rest)) = read ids (a ++ "--" ++ rest)) ∧
    ((∀ ids a b, Code a.toList →
        read ids (a ++ "--" ++ c ++ "\n" ++ b) = read ids (a ++ "\n" ++ b)) ↔
      ¬ LeavesOpen c.toList) := by
  refine ⟨fun ids a b ha hb => ha.read_apart hc hb ids,
    fun ids a b rest ha hopen hb => ha.read_through hc hopen hb rest ids,
    fun hsame hopen => ?_, fun hclosed ids a b ha =>
      ha.read_apart hc (fun hopen => absurd hopen hclosed) ids⟩
  -- a statement with a closing mark behind it is read alone, and lost behind the comment
  have hcode : Code "".toList := by decide
  have hlost := hcode.read_through (z := "CREATE TABLE t (id int);") hc hopen (by decide +kernel) ""
    .counter
  have hkept := hsame .counter "" "CREATE TABLE t (id int);*/" hcode
  exact absurd (hkept.symm.trans hlost) (by decide +kernel)

/-- What a comment leaves open, nothing closes here and a mark behind a statement there; another
comment leaves nothing open. -/
theorem read_lineComment_oldNote :
    read .counter ("CREATE TABLE t (a int); " ++ "--" ++ " old /*" ++ "\n" ++ "CREATE TABLE u (b int);") =
        read .counter ("CREATE TABLE t (a int); " ++ "\n" ++ "CREATE TABLE u (b int);") ∧
      read .counter ("CREATE TABLE t (a int); " ++ "--" ++ " old /*" ++ "\n" ++
          ("CREATE TABLE u (b int); /* key " ++ "*/" ++ " of u")) =
        read .counter ("CREATE TABLE t (a int); " ++ "--" ++ " of u") ∧
      ∀ ids a b, Code a.toList →
        read ids (a ++ "--" ++ " /* old */ key" ++ "\n" ++ b) = read ids (a ++ "\n" ++ b) := by
  obtain ⟨hapart, hthrough, -⟩ := read_lineComment (c := " old /*") (by decide)
  have hcode : Code "CREATE TABLE t (a int); ".toList := by decide +kernel
  refine ⟨hapart .counter _ _ hcode fun _ => by decide +kernel,
    hthrough .counter _ _ _ hcode (by decide +kernel) (by decide +kernel), ?_⟩
  exact (read_lineComment (c := " /* old */ key") (by decide)).2.2.2 (by decide +kernel)

/-- A block comment that a line comment leaves open takes a statement with it, and nothing tells. -/
theorem not_read_lineComment_openNote :
    Code "".toList ∧ '\n' ∉ " /*".toList ∧
      read .counter ("" ++ "--" ++ " /*" ++ "\n" ++ "CREATE TABLE t (id INT);\n/* */") = .ok ⟨[], [], []⟩ ∧
      read .counter ("" ++ "\n" ++ "CREATE TABLE t (id INT);\n/* */") ≠ .ok ⟨[], [], []⟩ := by
  decide +kernel

end SchemaDesign.Ddl
