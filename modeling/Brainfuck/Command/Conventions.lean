import Brainfuck.Command.Arguments
import Brainfuck.FileTree
import Brainfuck.Settings.File

/-!
# Conventions

What the program shares with others and leaves to them: how arguments are read, in which directory a
user keeps settings, and how a settings file is read.
-/

namespace Brainfuck

/-- A path with one more name at its end. -/
def joinPath (path : List UInt8) (name : String) : List UInt8 :=
  if path.isEmpty || path.getLast? == some FileTree.slash then path ++ Text.bytes name
  else path ++ FileTree.slash :: Text.bytes name

/-- Where a user with these variables keeps settings. -/
def userDirectory? (environment : String → Option (List UInt8)) : Option (List UInt8) :=
  match (environment "XDG_CONFIG_HOME").bind Text.ofBytes?, environment "HOME" with
  | some dir, _ => some (Text.bytes dir)
  | none, some home => some (joinPath home ".config")
  | none, none => none

structure Conventions where
  readArguments : List Argument → Except ArgumentError Request := Request.parse
  directory? : (environment : String → Option (List UInt8)) → Option (List UInt8) := userDirectory?
  /-- The layer in the text of a settings file, or the report about a mistake in it. -/
  readLayer : (text : String) → Except (Option String) Layer := Layer.readFile

end Brainfuck
