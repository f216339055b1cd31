import AttributeScope.Failure
import AttributeScope.FileTree.Lookup

/-!
# Where settings are found

The file with the settings is given explicitly, or it is the first one on the way from the
project's root upward, which ends at the top of a repository.

Main results:

- `findAmong_eq_some`: the file that is found exists, and none was nearer.
-/

namespace AttributeScope
namespace Config

/-- The name of the file with the settings. -/
def fileName : RawText := "genscope.toml"

/-- What the top of a repository holds. -/
def repositoryName : RawText := ".git"

/-- The first file with settings in directories, none of them above the top of a repository. -/
def findAmong (fs : FileSystem) : List RawText → Option RawText
  | [] => none
  | directory :: rest =>
    if fs.exists? (Path.join directory fileName) then some (Path.join directory fileName)
    else if fs.exists? (Path.join directory repositoryName) then none
    else findAmong fs rest

/-- The file with the settings of a project, if there is one. -/
def find? (fs : FileSystem) (root : RawText) : Option RawText := findAmong fs (Path.ancestors root)

/-- The file with the settings: the explicit one if it is given, which must exist. -/
def locate (fs : FileSystem) (explicit : Option RawText) (root : RawText) :
    Except Failure (Option RawText) :=
  match explicit with
  | none => .ok (find? fs root)
  | some path =>
    if fs.exists? path then .ok (some path)
    else .error (.config s!"config file not found: {path}")

/-- The file that is found exists, and none was nearer. -/
theorem findAmong_eq_some {fs : FileSystem} {directories : List RawText} {path : RawText}
    (h : findAmong fs directories = some path) :
    ∃ before directory after, directories = before ++ directory :: after ∧
      path = Path.join directory fileName ∧ fs.exists? path = true ∧
      ∀ nearer ∈ before, fs.exists? (Path.join nearer fileName) = false := by
  induction directories with
  | nil => simp [findAmong] at h
  | cons directory rest ih =>
    unfold findAmong at h
    split at h
    · rename_i hexists
      cases h
      exact ⟨[], directory, rest, rfl, rfl, hexists, by simp⟩
    · rename_i hnot
      split at h
      · simp at h
      · obtain ⟨before, found, after, rfl, hpath, hexists, hbefore⟩ := ih h
        refine ⟨directory :: before, found, after, rfl, hpath, hexists, ?_⟩
        intro nearer hn
        rcases List.mem_cons.mp hn with rfl | hn
        · simpa using hnot
        · exact hbefore nearer hn

end Config
end AttributeScope
