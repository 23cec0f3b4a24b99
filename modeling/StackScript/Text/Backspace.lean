import StackScript.Text.Cluster

/-!
# Backspaces

A line that was not typed at a terminal can still hold the backspaces of its typing. They are
carried out before the line is read: each takes back the cluster before it.

A cluster is taken back by its size in UTF-8, of which one byte is remembered: of a cluster that
is longer than that, only the remainder by 256 is taken back.

## Main definitions

* `Draft`: a line while it is put together.
* `afterBackspaces`: the text that is left of a line.
-/

namespace StackScript.Text

/-- The size of a text in UTF-8. -/
def byteSize (text : List Char) : Nat :=
  text.foldl (fun size c => size + c.utf8Size) 0

/-- Leaves out characters until so many bytes of UTF-8 are gone. -/
def dropBytes : List Char → Nat → List Char
  | [], _ => []
  | c :: rest, size => if size = 0 then c :: rest else dropBytes rest (size - c.utf8Size)

/-- A **draft** of a line: its characters, and what a backspace takes back. -/
structure Draft where
  /-- The characters, from the last one back. -/
  letters : List Char := []
  /-- The remembered sizes of the clusters, from the last one back. -/
  sizes : List Nat := []
  deriving DecidableEq, Inhabited, Repr

namespace Draft

/-- Adds a cluster to the draft. -/
def add (d : Draft) (cluster : List Char) : Draft where
  letters := cluster.reverse ++ d.letters
  sizes := byteSize cluster % 256 :: d.sizes

/-- Takes the last cluster back, if there is one. -/
def takeBack (d : Draft) : Draft :=
  match d.sizes with
  | [] => d
  | size :: sizes => { letters := dropBytes d.letters size, sizes }

/-- Goes on with a cluster of the line. A backspace joins no other character. -/
def step (d : Draft) (cluster : List Char) : Draft :=
  if cluster = ['\x08'] then d.takeBack else d.add cluster

/-- The text of the draft. -/
def text (d : Draft) : String :=
  String.ofList d.letters.reverse

end Draft

/-- What is left of a line when its backspaces are carried out. -/
def afterBackspaces (line : String) : String :=
  ((clusters line.toList).foldl Draft.step {}).text

end StackScript.Text
