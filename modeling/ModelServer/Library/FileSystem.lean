import Mathlib.Data.List.Basic
import Mathlib.Logic.Function.Basic

/-!
# Files by path

A file system as a map from paths to contents.  Renaming a file over another one is
one step.  `ChangesOnly` says which paths a program may have touched.
-/

namespace FileSystem

/-- `none` where there is no file. -/
abbrev Files (Path Content : Type*) := Path → Option Content

variable {Path Content : Type*} {files middle later : Files Path Content} {paths : List Path}

/-- No file but those at `paths` has changed. -/
def ChangesOnly (paths : List Path) (files later : Files Path Content) : Prop :=
  ∀ path, path ∉ paths → later path = files path

theorem ChangesOnly.refl (paths : List Path) (files : Files Path Content) :
    ChangesOnly paths files files :=
  fun _ _ => rfl

theorem ChangesOnly.trans (h : ChangesOnly paths files middle)
    (h' : ChangesOnly paths middle later) : ChangesOnly paths files later :=
  fun path hpath => (h' path hpath).trans (h path hpath)

variable [DecidableEq Path]

def write (files : Files Path Content) (path : Path) (content : Content) : Files Path Content :=
  Function.update files path (some content)

def unlink (files : Files Path Content) (path : Path) : Files Path Content :=
  Function.update files path none

/-- `source` becomes `target`, at once; `none` where there is no `source`. -/
def replace (files : Files Path Content) (source target : Path) : Option (Files Path Content) :=
  (files source).map fun content => write (unlink files source) target content

@[simp] theorem write_self (files : Files Path Content) (path : Path) (content : Content) :
    write files path content path = some content :=
  Function.update_self _ _ _

theorem write_of_ne {path other : Path} (h : other ≠ path) (content : Content) :
    write files path content other = files other :=
  Function.update_of_ne h _ _

theorem unlink_of_ne {path other : Path} (h : other ≠ path) :
    unlink files path other = files other :=
  Function.update_of_ne h _ _

theorem replace_of_some {source : Path} (target : Path) {content : Content}
    (h : files source = some content) :
    replace files source target = some (write (unlink files source) target content) := by
  rw [replace, h, Option.map_some]

theorem changesOnly_write {path : Path} (hmem : path ∈ paths) (content : Content) :
    ChangesOnly paths files (write files path content) := by
  intro other hother
  refine write_of_ne ?_ content
  rintro rfl
  exact hother hmem

theorem changesOnly_unlink {path : Path} (hmem : path ∈ paths) :
    ChangesOnly paths files (unlink files path) := by
  intro other hother
  refine unlink_of_ne ?_
  rintro rfl
  exact hother hmem

end FileSystem
