/-
Why settings could not be had.
-/
import GrammarExplorer.Files
import GrammarExplorer.Settings.Path

namespace GrammarExplorer

inductive SettingsError
  /-- A key that is no path. -/
  | badPath (fault : Settings.PathFault)
  /-- A value that does not do for its setting. The key is built up from the
  inside; the file is left out if the value is from none. -/
  | wrongType (found wanted : String) (key : String) (origin : Option String)
  /-- A section that is no table. -/
  | wrongSection (found wanted : String)
  /-- A section given as a list that ends too early. -/
  | wrongLength (length : Nat) (wanted : String)
  | missingField (name : String)
  /-- A file that has to be there is not. -/
  | fileNotFound (name : String)
  /-- A file that has to be there could not be read. -/
  | unreadable (fault : ReadFault)
  /-- A file that is not TOML. -/
  | badFile (origin : String)
  deriving Repr, DecidableEq

def SettingsError.message : SettingsError → String
  | badPath fault => fault.message
  | wrongType found wanted key origin =>
    "invalid type: " ++ found ++ ", expected " ++ wanted ++ " for key `" ++ key ++ "`"
      ++ match origin with
        | some file => " in " ++ file
        | none => ""
  | wrongSection found wanted => "invalid type: " ++ found ++ ", expected " ++ wanted
  | wrongLength length wanted => "invalid length " ++ toString length ++ ", expected " ++ wanted
  | missingField name => "missing field `" ++ name ++ "`"
  | fileNotFound name => "configuration file \"" ++ name ++ "\" not found"
  | unreadable fault => fault.message
  | badFile origin => "TOML parse error in " ++ origin

end GrammarExplorer
