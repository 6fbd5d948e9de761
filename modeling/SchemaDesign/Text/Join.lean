/-! Putting texts together. -/
namespace SchemaDesign.Text

def concat : List String → String
  | [] => ""
  | s :: rest => s ++ concat rest

/-- The texts with a separator between each two. -/
def joined (separator : String) : List String → String
  | [] => ""
  | [s] => s
  | s :: t :: rest => s ++ separator ++ joined separator (t :: rest)

end SchemaDesign.Text
