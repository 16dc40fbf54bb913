import SmallLang.Language

/-!
# Files with grammars

With a directory as the target, assembling a language leaves a file with the text of its grammar
there. The file is named after the start type. A name that leads through a directory that does not
exist, or out of the target, leaves no file in it, and neither does one that is too long.
-/

set_option autoImplicit false

namespace SmallLang

/-- The target named by a setting: `1` means the error output, anything else a directory. -/
def DumpTarget.ofSetting (setting : String) : DumpTarget :=
  if setting = "1" then .console
  else .directory ((setting.splitOn "/").filter fun part => part != "" && part != ".")

/-- Walks from a directory along the parts of a path, where only the target and the directories
around it exist. The answer is the file that the path names, if it lies in the target. -/
def fileIn? (target : List String) (directory : List String) : List String → Option String
  | [] => none
  | [file] => if directory = target then some file else none
  | part :: parts =>
      if part = "" ∨ part = "." then fileIn? target directory parts
      else if part = ".." then
        if directory = [] then none else fileIn? target directory.dropLast parts
      else if (directory ++ [part]).isPrefixOf target then
        fileIn? target (directory ++ [part]) parts
      else none

/-- The largest number of bytes in the name of a file. -/
def maxFileName : Nat := 255

/-- The largest number of bytes in a path. -/
def maxPath : Nat := 4095

/-- The name of the file for a language, if it can be written to the target. -/
def dumpFileName? (target : List String) (start : String) : Option String :=
  let path := start ++ ".grammar"
  let fullPath := String.intercalate "/" (target ++ [path])
  if path.startsWith "/" || path.contains '\x00' || maxPath < fullPath.utf8ByteSize then none
  else (fileIn? target target (path.splitOn "/")).filter fun file => file.utf8ByteSize ≤ maxFileName

/-- The file, name and text, that assembling the language leaves in the target of its settings.
`canCreate` tells whether the directory is there or can be made. -/
def Language.dumpFile? (l : Language) (canCreate : List String → Bool) : Option (String × String) :=
  match l.config.dump with
  | some (.directory target) =>
      if canCreate target then (dumpFileName? target l.start).map (·, l.dump) else none
  | _ => none

end SmallLang
