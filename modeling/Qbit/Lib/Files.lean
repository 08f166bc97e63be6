import Mathlib.Logic.Function.Basic

/-!
# The files of a directory

A directory holds contents under paths.  A file can be written, removed, and renamed, which replaces
a file that has the new name.
-/

/-- The contents of the files of a directory. -/
abbrev Files (Path Content : Type) := Path → Option Content

namespace Files

variable {Path Content : Type} [DecidableEq Path] (files : Files Path Content)
  {path source destination : Path}

/-- The file is replaced, or made. -/
def write (path : Path) (content : Content) : Files Path Content :=
  Function.update files path (some content)

/-- The file is removed, if there is one. -/
def remove (path : Path) : Files Path Content := Function.update files path none

/-- The file gets another name, unless there is no such file. -/
def rename (source destination : Path) : Option (Files Path Content) :=
  (files source).map (write (files.remove source) destination)

theorem remove_self (path : Path) : files.remove path path = none := Function.update_self ..

theorem remove_of_ne {other : Path} (h : other ≠ path) : files.remove path other = files other :=
  Function.update_of_ne h ..

theorem rename_eq_some {content : Content} (h : files source = some content) (destination : Path) :
    files.rename source destination = some ((files.remove source).write destination content) := by
  rw [rename, h]
  rfl

theorem write_self (path : Path) (content : Content) : files.write path content path = some content :=
  Function.update_self ..

theorem write_of_ne {other : Path} (h : other ≠ path) (content : Content) :
    files.write path content other = files other :=
  Function.update_of_ne h ..

end Files
