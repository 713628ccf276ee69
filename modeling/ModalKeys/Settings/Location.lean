import ModalKeys.Path

/-!
# Where settings and logs are kept

Both are kept in a directory of their own inside the user's configuration directory. That is the one
the environment names, or else `.config` in the home directory.
-/

namespace ModalKeys

/-- What the environment says about the user's directories. -/
structure Environment where
  /-- The configuration directory, if one is named; the empty name counts. -/
  configHome : Option String
  /-- The home directory; an empty name counts as none. -/
  home : Option String
  /-- The home directory of the user's account. -/
  accountHome : Option String
deriving Repr

namespace Environment

def homeDir? (e : Environment) : Option String :=
  match e.home with
  | none | some "" => e.accountHome
  | some home => some home

/-- The directory of the settings and the logs. -/
def configDir? (e : Environment) : Option String := do
  let base ←
    match e.configHome with
    | some dir => some dir
    | none => e.homeDir?.map (Path.join · ".config")
  return Path.join base "vimrc-loader"

def configFile? (e : Environment) : Option String :=
  e.configDir?.map (Path.join · "config.yaml")

def logsDir? (e : Environment) : Option String :=
  e.configDir?.map (Path.join · "logs")

end Environment

end ModalKeys
