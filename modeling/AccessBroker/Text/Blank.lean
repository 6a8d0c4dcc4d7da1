/-!
# Blank characters and trimming

The broker treats as blank exactly the characters that Unicode gives the property
`White_Space`: the ASCII blanks, the two Latin-1 ones and the spaces and
separators further up. A name made of blanks only is no name, and a span or a
setting is read after the blanks around it have been dropped.
-/

namespace AccessBroker.Text

/-- Has the character the Unicode property `White_Space`? -/
def isBlank (c : Char) : Bool :=
  let n := c.toNat
  (0x09 ≤ n && n ≤ 0x0D) || n == 0x20 || n == 0x85 || n == 0xA0 || n == 0x1680 ||
    (0x2000 ≤ n && n ≤ 0x200A) || n == 0x2028 || n == 0x2029 || n == 0x202F ||
    n == 0x205F || n == 0x3000

/-- A text without its leading blanks. -/
def dropBlanks (text : List Char) : List Char :=
  text.dropWhile isBlank

/-- A text without its leading and trailing blanks. -/
def trimChars (text : List Char) : List Char :=
  (dropBlanks (dropBlanks text).reverse).reverse

/-- A text without its leading and trailing blanks. -/
def trim (text : String) : String :=
  String.ofList (trimChars text.toList)

/-- Does the text hold nothing but blanks? -/
def isBlankText (text : String) : Bool :=
  text.toList.all isBlank

end AccessBroker.Text
