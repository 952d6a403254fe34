import Hydration.Path
import Hydration.Sha1
/-!
# Names of component modules

A module is named after its file, with the start of a digest of the whole path, so that files of one
name in different directories do not share a module.

* `moduleName_label`: the name starts with the label of the file.
-/
namespace Hydration

/-- What all module names start with. -/
def moduleNameStart : Text := "prerender_component_"

/-- How many hexadecimal digits of the digest stand in a name. -/
def moduleDigestLength : Nat := 12

/-- The label of a file: its own name, or that of the directory which it makes a module. -/
def moduleLabel (source : FilePath) : Text :=
  if source.name = packageFile then source.parent.name else source.stem

/-- The name of the module in a file. -/
def moduleName (source : FilePath) : Text :=
  moduleNameStart ++ moduleLabel source ++
    '_' :: (Sha1.hexDigest (Text.Utf8.encode source.toText)).take moduleDigestLength

theorem moduleName_label (source : FilePath) :
    (moduleNameStart ++ moduleLabel source).isPrefixOf (moduleName source) = true := by
  rw [List.isPrefixOf_iff_prefix]
  exact List.prefix_append _ _

end Hydration
