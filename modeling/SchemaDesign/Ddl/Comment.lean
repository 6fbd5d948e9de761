/-! Removing comments. Block comments go first and leave a space; line comments leave their line break.
A block comment that is not closed stays. -/
namespace SchemaDesign.Ddl

/-- The text behind the first mark that closes a block comment. -/
def afterBlock? : List Char → Option (List Char)
  | [] => none
  | '*' :: '/' :: rest => some rest
  | _ :: rest => afterBlock? rest

theorem length_afterBlock? {s rest : List Char} (h : afterBlock? s = some rest) :
    rest.length < s.length := by
  fun_induction afterBlock? s with
  | case1 => simp at h
  | case2 r => cases h; exact Nat.lt_succ_of_lt (Nat.lt_succ_self _)
  | case3 c r _ ih => exact Nat.lt_succ_of_lt (ih h)

def withoutBlocks : List Char → List Char
  | [] => []
  | '/' :: '*' :: s =>
      match _h : afterBlock? s with
      | some rest => ' ' :: withoutBlocks rest
      | none => '/' :: withoutBlocks ('*' :: s)
  | c :: s => c :: withoutBlocks s
termination_by s => s.length
decreasing_by
  all_goals simp
  have := length_afterBlock? _h
  omega

def withoutLineComments : List Char → List Char
  | [] => []
  | '-' :: '-' :: s => withoutLineComments (s.dropWhile (· != '\n'))
  | c :: s => c :: withoutLineComments s
termination_by s => s.length
decreasing_by
  · have := (List.dropWhile_suffix (· != '\n') : s.dropWhile (· != '\n') <:+ s).length_le
    simp; omega
  · simp

def withoutComments (s : List Char) : List Char := withoutLineComments (withoutBlocks s)

end SchemaDesign.Ddl
