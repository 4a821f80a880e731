/-!
# `StoreBench.Text.Blank`: white space

The characters of the Unicode property White_Space, and the words of a
text, which are its longest runs of other characters.
-/

set_option autoImplicit false

namespace StoreBench.Text

/-- The property White_Space, as code points. -/
def isBlank (c : Char) : Bool :=
  let n := c.toNat
  (9 ≤ n && n ≤ 13) || n == 0x20 || n == 0x85 || n == 0xA0 || n == 0x1680
    || (0x2000 ≤ n && n ≤ 0x200A) || n == 0x2028 || n == 0x2029 || n == 0x202F
    || n == 0x205F || n == 0x3000

/-- The words of `cs`, where `word` holds the word under way, last
character first. -/
def wordsFrom : List Char → List Char → List (List Char)
  | word, [] => if word.isEmpty then [] else [word.reverse]
  | word, c :: cs =>
    if isBlank c then
      if word.isEmpty then wordsFrom [] cs else word.reverse :: wordsFrom [] cs
    else wordsFrom (c :: word) cs

def words (s : String) : List String := (wordsFrom [] s.toList).map String.ofList

def skipBlank (cs : List Char) : List Char := cs.dropWhile isBlank

/-- ASCII letters in lower case, other characters unchanged. -/
def lowered (s : String) : String := String.ofList (s.toList.map Char.toLower)

/-- The length of a text in UTF-8. -/
def byteCount (cs : List Char) : Nat := cs.foldl (fun n c => n + c.utf8Size) 0

end StoreBench.Text
