import StackScript.Text.BreakClass

/-!
# Clusters

A text divides into **clusters**, the runs of code points that a reader takes for one character.
A character joins the cluster before it by the Unicode rules of extended grapheme clusters. All
of them look back no further than the first character of that cluster, so a cluster is built
from left to right.

## Main definitions

* `joins`: whether a character belongs to the cluster before it.
* `clusters`: the clusters of a text.
-/

namespace StackScript.Text

namespace BreakClass

/-- Classes that break the text on both sides. -/
def breaks : BreakClass → Bool
  | .carriageReturn | .lineFeed | .control => true
  | _ => false

/-- Classes that join whatever does not break. -/
def trails : BreakClass → Bool
  | .mark | .linker | .nonJoiner | .joiner | .spacing => true
  | _ => false

/-- Whether two sounds in a row belong to one Hangul syllable. -/
def sameSyllable : BreakClass → BreakClass → Bool
  | .opening, .opening | .opening, .vowel => true
  | .opening, .openSyllable | .opening, .closedSyllable => true
  | .openSyllable, .vowel | .openSyllable, .closing => true
  | .vowel, .vowel | .vowel, .closing => true
  | .closedSyllable, .closing | .closing, .closing => true
  | _, _ => false

end BreakClass

/-! ### Looking back

The classes of the characters before a place are listed from the nearest one back. -/

/-- Whether a consonant stands behind any marks. -/
def followsConsonant : List BreakClass → Bool
  | .consonant :: _ => true
  | .mark :: before | .linker :: before | .joiner :: before => followsConsonant before
  | _ => false

/-- Whether a consonant stands behind marks of which one is a linker. -/
def followsLinked : List BreakClass → Bool
  | .linker :: before => followsConsonant before
  | .mark :: before | .joiner :: before => followsLinked before
  | _ => false

/-- Whether a pictograph stands behind any marks. -/
def followsPictograph : List BreakClass → Bool
  | .pictograph :: _ => true
  | .mark :: before | .linker :: before | .nonJoiner :: before => followsPictograph before
  | _ => false

/-- Whether a pictograph stands behind any marks and a joiner. -/
def followsJoined : List BreakClass → Bool
  | .joiner :: before => followsPictograph before
  | _ => false

/-- Whether a regional indicator stands there that has no partner. -/
def followsHalfFlag (before : List BreakClass) : Bool :=
  (before.takeWhile (· = .regional)).length % 2 = 1

/-! ### Clusters -/

/-- Whether a character joins the cluster before it. -/
def joins : List BreakClass → BreakClass → Bool
  | [], _ => false
  | last :: before, next =>
    if last.breaks || next.breaks then last = .carriageReturn && next = .lineFeed
    else
      next.trails || last = .leading || last.sameSyllable next ||
      match next with
      | .consonant => followsLinked (last :: before)
      | .pictograph => followsJoined (last :: before)
      | .regional => followsHalfFlag (last :: before)
      | _ => false

/-- The clusters of a text, after those that are complete and an open one. Those lists, the open
cluster and its classes are in reverse. -/
def clustersFrom (complete : List (List Char)) (cluster : List Char)
    (classes : List BreakClass) : List Char → List (List Char)
  | [] => (cluster.reverse :: complete).reverse
  | c :: rest =>
    let next := breakClass c
    if joins classes next then clustersFrom complete (c :: cluster) (next :: classes) rest
    else clustersFrom (cluster.reverse :: complete) [c] [next] rest

/-- The **clusters** of a text. -/
def clusters : List Char → List (List Char)
  | [] => []
  | c :: rest => clustersFrom [] [c] [breakClass c] rest

end StackScript.Text
