import DollarMath.Text.Basic

/-!
# Paths

A path names a file or directory by the directories on the way to it.  It is kept and shown
without the steps that stay where they are.
-/

namespace DollarMath

/-- The name of a file or directory as steps from a directory. -/
structure Path where
  /-- The slashes before the first step of a path that starts at the root directory. -/
  root : Text
  /-- The steps, none of which is empty or a single dot. -/
  steps : List Text
  deriving DecidableEq, Repr

namespace Path

/-- The step to the directory above. -/
def up : Text :=
  ".."

/-- The slashes that are kept of those before a path: two stay two, more become one. -/
def rootOf (slashes : Text) : Text :=
  if slashes.length ≤ 2 then slashes else "/"

/-- The path that a text spells. -/
def ofText (text : Text) : Path where
  root := rootOf (text.takeWhile (· == '/'))
  steps := (text.splitOn '/').filter fun step => step ≠ [] ∧ step ≠ Text.ofString "."

/-- A path as it is shown. -/
def render (path : Path) : Text :=
  if path.root = [] ∧ path.steps = [] then "."
  else path.root ++ (Text.ofString "/").intercalate path.steps

end Path
end DollarMath
