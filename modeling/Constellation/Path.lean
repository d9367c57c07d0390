import Constellation.Text.Substitution
set_option autoImplicit false

/-!
# Paths

A path names a place in a file tree. It is kept as the text in which it was given, since messages
and shell lines show that text, and is only taken apart to look something up.

## Main definitions

* `Path` — a path as text.
* `Path.join` — a path below another one.
* `Path.stamped` — a path below another one with a time stamp filled in.
* `Path.names`, `Path.steps` — what stands between the separators.
* `Path.parent?` — the path without its last step.

## Main results

* `Path.join_absolute` — an absolute path stays as it is, whatever it is joined to.

## Design

Joining follows what a shell user expects: an absolute path starts over, and otherwise one
separator is put between the two texts unless there is one already.
-/

namespace Constellation

/-- A path as text. -/
structure Path where
  /-- The text. -/
  text : String
  deriving DecidableEq, Repr, Inhabited

namespace Path

/-- The characters of the text. -/
def chars (p : Path) : List Char := p.text.toList

/-- The path with the given characters. -/
def ofChars (cs : List Char) : Path := ⟨String.ofList cs⟩

/-- Whether a path starts at the root of the file system. -/
def isAbsolute (p : Path) : Bool := p.chars.head? == some '/'

/-- Whether something appended to a path needs a separator in between. -/
def needsSeparator (p : Path) : Bool :=
  match p.chars.getLast? with
  | none => false
  | some c => c != '/'

/-- The path `q` as seen from `p`. -/
def join (p q : Path) : Path :=
  if q.isAbsolute then q
  else if p.needsSeparator then ⟨p.text ++ "/" ++ q.text⟩
  else ⟨p.text ++ q.text⟩

/-- The nonempty names in a path, between its separators. -/
def names (p : Path) : List (List Char) :=
  (p.chars.splitOn '/').filter fun name => !name.isEmpty

/-- The names in a path without the lone dots, which lead nowhere. Only a dot at the start of a
relative path is kept. -/
def steps (p : Path) : List (List Char) :=
  match p.names with
  | [] => []
  | first :: rest =>
    let kept := rest.filter (· != ['.'])
    if p.isAbsolute && first == ['.'] then kept else first :: kept

/-- The path without its last step. The root, the empty path and a path of nothing but separators
have none. -/
def parent? (p : Path) : Option Path :=
  let steps := p.steps
  if steps.isEmpty then none
  else
    let front := ['/'].intercalate steps.dropLast
    some (ofChars (if p.isAbsolute then '/' :: front else front))

/-- A path below another one, with the first pair of braces in its text filled by a stamp. -/
def stamped (p : Path) (text stamp : String) : Path :=
  p.join (ofChars (replaceFirst ['\x7b', '\x7d'] stamp.toList text.toList))

/-- An absolute path stays as it is. -/
theorem join_absolute (p : Path) {q : Path} (h : q.isAbsolute = true) : p.join q = q := by
  simp [join, h]

end Path

end Constellation
