/-!
# Blanks

The characters with the property White_Space, and what they divide: a text trimmed of them at both
ends, and the words between them.
-/

namespace Brainfuck.Text

def isBlank (c : Char) : Bool :=
  let n := c.toNat
  (0x09 ≤ n && n ≤ 0x0D) || n == 0x20 || n == 0x85 || n == 0xA0 || n == 0x1680 ||
    (0x2000 ≤ n && n ≤ 0x200A) || n == 0x2028 || n == 0x2029 || n == 0x202F || n == 0x205F ||
    n == 0x3000

def trim (cs : List Char) : List Char :=
  ((cs.dropWhile isBlank).reverse.dropWhile isBlank).reverse

/-- A finished word, last character first, unless it is empty. -/
def finishWord (word : List Char) : List (List Char) :=
  if word.isEmpty then [] else [word.reverse]

/-- The words of a text that goes on with the word read so far, last character first. -/
def wordsFrom (word : List Char) : List Char → List (List Char)
  | [] => finishWord word
  | c :: cs => if isBlank c then finishWord word ++ wordsFrom [] cs else wordsFrom (c :: word) cs

/-- The maximal runs of characters that are not blank, in order. -/
def words (cs : List Char) : List (List Char) :=
  wordsFrom [] cs

theorem wordsFrom_append_blank (word cs ds : List Char) {b : Char} (hb : isBlank b = true) :
    wordsFrom word (cs ++ b :: ds) = wordsFrom word cs ++ words ds := by
  induction cs generalizing word with
  | nil => simp [wordsFrom, words, hb]
  | cons c cs ih =>
      by_cases hc : isBlank c <;> simp [wordsFrom, hc, ih]

/-- A blank divides a text into two that have nothing to do with each other. -/
theorem words_append_blank (cs ds : List Char) {b : Char} (hb : isBlank b = true) :
    words (cs ++ b :: ds) = words cs ++ words ds :=
  wordsFrom_append_blank [] cs ds hb

end Brainfuck.Text
