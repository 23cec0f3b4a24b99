/-!
# Fields of a Listing

Numbers and words set in columns of a fixed least width. A text that is wider than its column
is kept whole.

## Main definitions

* `zeroPadded`: a number filled up with zeros on the left.
* `leftAligned`: a word filled up with blanks on the right.
-/

namespace StackScript.Text

/-- The decimal digits of `n`, filled up to `width` with zeros on the left. -/
def zeroPadded (width n : Nat) : String :=
  let digits := toString n
  "".pushn '0' (width - digits.length) ++ digits

/-- The word, filled up to `width` characters with blanks on the right. -/
def leftAligned (width : Nat) (word : String) : String :=
  word.pushn ' ' (width - word.length)

end StackScript.Text
