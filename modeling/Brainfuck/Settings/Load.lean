import Brainfuck.Settings.Basic
import Brainfuck.Text.Utf8

/-!
# Loading settings

Where the settings file is, what may be found there, and the settings that follow.  A file that
cannot be used is as good as none, apart from a notice.
-/

namespace Brainfuck.Settings

/-- What was found in the place of the settings file. -/
inductive File
  | absent
  | unreadable (reason : String)
  | malformed
  | read (contents : Contents)
deriving DecidableEq

def File.ofText (file : String) : File :=
  match Contents.parse file with
  | .ok contents => read contents
  | .error _ => malformed

def File.ofBytes (bytes : List UInt8) : File :=
  match Text.Utf8.decode? bytes with
  | some file => ofText file
  | none => unreadable "stream did not contain valid UTF-8"

/-- The settings that the file at `path` makes of the default ones. -/
def ofFile (path : String) : File → Settings × List Notice
  | .absent => ({}, [])
  | .unreadable reason => ({}, [.unreadableFile path reason])
  | .malformed => ({}, [.malformedFile path])
  | .read contents => ofContents contents

/-- Default settings, changed by the file and then by the environment. -/
def load (path : String) (file : File) (lookup : Variable → Option String) :
    Settings × List Notice :=
  let (s, fileNotices) := ofFile path file
  let (s, environmentNotices) := applyEnvironment lookup s
  (s, fileNotices ++ environmentNotices)

/-! ## The place of the file -/

/-- A path inside a directory. -/
def inside (directory name : String) : String :=
  match directory.toList.getLast? with
  | none => name
  | some '/' => directory ++ name
  | some _ => directory ++ "/" ++ name

/-- The settings file is in the user's configuration directory, which the environment may name. -/
def filePath (home : String) (configHome : Option String) : String :=
  inside (configHome.getD (inside home ".config")) "brainfry.toml"

end Brainfuck.Settings
