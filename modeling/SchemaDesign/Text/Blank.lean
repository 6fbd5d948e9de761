import SchemaDesign.Text.Ranges

/-! White space in the sense of Unicode 14 together with the four information separators, and the
removal of it at the ends of a text. -/
namespace SchemaDesign.Text

def blankRanges : Ranges :=
  [(9, 13), (28, 32), (133, 133), (160, 160), (5760, 5760), (8192, 8202), (8232, 8233),
   (8239, 8239), (8287, 8287), (12288, 12288)]

def isBlank (c : Char) : Bool := blankRanges.covers c.toNat

def trimStart (s : List Char) : List Char := s.dropWhile isBlank

def trimEnd (s : List Char) : List Char := (s.reverse.dropWhile isBlank).reverse

/-- The text without the white space at its two ends. -/
def trim (s : List Char) : List Char := trimEnd (trimStart s)

end SchemaDesign.Text
