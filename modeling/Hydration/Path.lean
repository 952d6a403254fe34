import Hydration.Failure
/-!
# Paths

Two views of a path. `Path.absolute` is the path of a component, made absolute and normal by the
letters alone: empty and `.` segments are dropped and `..` takes the segment before it away.
`FilePath` is a path whose file is looked for: `..` is kept, since only the file system knows what
it means. In both, exactly two leading slashes are not the same as one.

* `absolute_ne_nil`: an absolute path is never empty.
* `walk_append`: segments are walked from left to right.
-/
namespace Hydration

namespace Path

/-- Takes one step from a directory, given by its segments. -/
def stepSegment (segments : List Text) (segment : Text) : List Text :=
  if segment = [] ∨ segment = ['.'] then segments
  else if segment = ['.', '.'] then segments.dropLast
  else segments ++ [segment]

/-- Takes steps from a directory one after the other. -/
def walk (start steps : List Text) : List Text := steps.foldl stepSegment start

theorem walk_append (start a b : List Text) : walk start (a ++ b) = walk (walk start a) b := by
  simp [walk]

/-- The slashes that a path starts with: two if it starts with exactly two, else one. -/
def leadingSlashes (t : Text) : Text :=
  if Text.opensWith "//" t && !Text.opensWith "///" t then "//" else "/"

/-- The path made absolute from the root directory and normal. -/
def absolute (t : Text) : Text :=
  let t := if Text.opensWith "/" t then t else '/' :: t
  leadingSlashes t ++ ['/'].intercalate (walk [] (Text.parts '/' t))

theorem leadingSlashes_ne_nil (t : Text) : leadingSlashes t ≠ [] := by
  unfold leadingSlashes
  split <;> decide

theorem absolute_ne_nil (t : Text) : absolute t ≠ [] := by
  unfold absolute
  exact List.append_ne_nil_of_left_ne_nil (leadingSlashes_ne_nil _) _

/-- The path of a component: its reference under the root, whatever slashes either has. -/
def resolve (root reference : Text) : Text := absolute (root ++ '/' :: reference)

end Path

/-- The path of a file: the slashes at its start and its segments, none of them empty or `.`. -/
structure FilePath where
  slashes : Text
  segments : List Text
  deriving DecidableEq, Repr

namespace FilePath

/-- The path that a text is. -/
def ofText (t : Text) : FilePath :=
  ⟨if Text.opensWith "/" t then Path.leadingSlashes t else [],
    (Text.parts '/' t).filter fun s => s ≠ [] ∧ s ≠ ['.']⟩

/-- The path as text; the empty path is the current directory. -/
def toText (p : FilePath) : Text :=
  match p.slashes ++ ['/'].intercalate p.segments with
  | [] => ['.']
  | t => t

/-- The last segment, empty if there is none. -/
def name (p : FilePath) : Text := p.segments.getLast?.getD []

/-- The path without its last segment. -/
def parent (p : FilePath) : FilePath := { p with segments := p.segments.dropLast }

/-- The path of a file in the directory that the path is. -/
def child (p : FilePath) (name : Text) : FilePath := { p with segments := p.segments ++ [name] }

/-- A name cut before its last point; a point at either end is part of the name. -/
def splitName (name : Text) : Text × Text :=
  let tail := (name.reverse.takeWhile (· ≠ '.')).reverse
  let stem := name.take (name.length - tail.length - 1)
  if tail.length < name.length ∧ stem ≠ [] ∧ tail ≠ [] then (stem, '.' :: tail) else (name, [])

/-- The last segment up to its last point. -/
def stem (p : FilePath) : Text := (splitName p.name).1

/-- The last segment from its last point on. -/
def suffix (p : FilePath) : Text := (splitName p.name).2

end FilePath

/-- The name of the file that makes a directory a module. -/
def packageFile : Text := "__init__.py"

/-- The files in which a component may be found: the path itself if it names a source file, else the
source file of that name, or the directory as a package. -/
def candidates (path : Text) : Except Failure (List FilePath) :=
  let p := FilePath.ofText path
  if p.suffix = ".py".toList then .ok [p]
  else if p.name = [] then .error (.value (.emptyName p.toText))
  else .ok [p.parent.child (p.name ++ ".py"), p.child packageFile]

end Hydration
