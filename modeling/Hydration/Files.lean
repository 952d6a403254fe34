import Hydration.Path
import Hydration.Text.Utf8
/-!
# A tree of files

Files and directories below one directory, each by the segments of its path. A path is walked
segment by segment: `..` goes up, which must not leave the tree, and every step needs a directory to
start from.

* `lookup?_write`: a file that was written stands at its segments.
* `reach_append`: a walk goes on where it has arrived.
-/
namespace Hydration

/-- The entries of a tree, each a directory or a file with its content. The tree itself is a
directory that is always there. -/
structure Files (α : Type) where
  entries : List (List Text × Option α)

namespace Files

variable {α : Type}

/-- The tree without entries. -/
def empty : Files α := ⟨[]⟩

/-- What stands at the given segments: a directory is `some none`. -/
def lookup? (fs : Files α) (segments : List Text) : Option (Option α) :=
  if segments = [] then some none else fs.entries.lookup segments

/-- Whether a directory stands at the given segments. -/
def isDirectory (fs : Files α) (segments : List Text) : Bool :=
  match fs.lookup? segments with
  | some none => true
  | _ => false

/-- Puts an entry in place of what was there. -/
def put (fs : Files α) (segments : List Text) (entry : Option α) : Files α :=
  ⟨(segments, entry) :: fs.entries.filter fun e => e.1 ≠ segments⟩

/-- Makes the directory at the given segments and those above it. What is there stays. -/
def makeDirectory (fs : Files α) (segments : List Text) : Files α :=
  below fs [] segments
where
  /-- Makes the directories along segments below one that is there. -/
  below (fs : Files α) (here : List Text) : List Text → Files α
    | [] => fs
    | segment :: rest =>
      let next := here ++ [segment]
      below (if (fs.lookup? next).isSome then fs else fs.put next none) next rest

/-- Writes a file, making the directories above it. -/
def write (fs : Files α) (segments : List Text) (content : α) : Files α :=
  (fs.makeDirectory segments.dropLast).put segments (some content)

/-- Removes what stands at the given segments and below. -/
def remove (fs : Files α) (segments : List Text) : Files α :=
  ⟨fs.entries.filter fun e => !segments.isPrefixOf e.1⟩

/-- Walks from a directory along segments. -/
def reach (fs : Files α) : List Text → List Text → Option (List Text)
  | here, [] => some here
  | here, segment :: rest =>
    if !fs.isDirectory here then none
    else if segment = ['.', '.'] then
      if here = [] then none else reach fs here.dropLast rest
    else reach fs (here ++ [segment]) rest

theorem reach_append (fs : Files α) (here a b : List Text) :
    fs.reach here (a ++ b) = (fs.reach here a).bind (fs.reach · b) := by
  induction a generalizing here with
  | nil => rfl
  | cons s rest ih =>
    simp only [List.cons_append, reach]
    split
    · rfl
    · split
      · split
        · rfl
        · exact ih _
      · exact ih _

/-- The file that a walk from a directory arrives at. -/
def find? (fs : Files α) (here segments : List Text) : Option α := do
  let place ← fs.reach here segments
  let entry ← fs.lookup? place
  entry

/-- The most bytes of a name. -/
def maxNameBytes : Nat := 255

/-- Whether a walk from a directory comes to a name that is too long to be looked up. -/
def meetsLongName (fs : Files α) : List Text → List Text → Bool
  | _, [] => false
  | here, segment :: rest =>
    if !fs.isDirectory here then false
    else if segment = ['.', '.'] then here ≠ [] && meetsLongName fs here.dropLast rest
    else
      maxNameBytes < (Text.Utf8.encode segment).length || meetsLongName fs (here ++ [segment]) rest

/-- The file at the given segments, as it was written. -/
theorem lookup?_write (fs : Files α) {segments : List Text} (content : α) (h : segments ≠ []) :
    (fs.write segments content).lookup? segments = some (some content) := by
  simp [write, put, lookup?, h]

end Files
end Hydration
