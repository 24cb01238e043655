import Cartridge.Config.Tree
import Cartridge.Release

/-!
# The configuration for a release

A configuration is looked for in directories, under the name that the release gives it.
Where none is found, one that comes with the library is used, if there is one.
-/
namespace Cartridge.Config

/-- The configuration of the first release of Ocarina of Time. -/
def ootNtsc10 : Tree where
  root := [
    ("fileList", .table [
      ("00000000", .string "makerom"),
      ("00001060", .string "boot"),
      ("00007430", .string "dmadata"),
      ("00A87000", .string "code"),
      ("fakeNames", .table [])])]

/-- The packaged configuration for a release. -/
def packaged? : Release → Option Tree
  | .ootNtsc10 => some ootNtsc10
  | _ => none

/-- The path of a file in a directory. -/
def pathIn (directory name : String) : String :=
  if directory.isEmpty || directory.endsWith "/" then directory ++ name
  else directory ++ "/" ++ name

/-- Where the configuration for a release may be, in the order of the directories. -/
def paths (directories : List String) (release : Release) : List String :=
  match release.configName? with
  | some name => directories.map (pathIn · (name ++ ".toml"))
  | none => []

/-- The configuration for a release: the first that is found in the directories, or
else the packaged one. One that cannot be read counts as none at all. -/
def ofFiles? (files : String → Option Bytes) (directories : List String)
    (release : Release) : Option Tree :=
  match (paths directories release).findSome? files with
  | some bytes => do
    let text ← String.fromUTF8? ⟨bytes.toArray⟩
    (Tree.ofText text).toOption
  | none => packaged? release

end Cartridge.Config
