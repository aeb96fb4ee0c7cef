import Entitlements.Settings.Basic
import Entitlements.Bundle.Feature

/-!
What a process derives from its settings: how it connects to its database, which feature table it
goes by, and how much it logs. Connections are pooled, within sensible bounds, unless the database
is a local file. The log level is looked up among the upper-case names of the logging facility; a
name that is not there means the usual level, and two names stand for things that are no level.
-/

namespace Entitlements

/-! ### Connections -/

structure Pool where
  size : Int
  maxOverflow : Int
  timeout : Int
  recycle : Int
  statementTimeout : Option Int
  deriving DecidableEq

structure Connection where
  url : String
  prePing : Bool
  pool : Option Pool
  deriving DecidableEq

namespace Settings

def isFileDatabase (s : Settings) : Bool := "sqlite".toList.isPrefixOf s.databaseUrl.toList

def connection (s : Settings) : Connection where
  url := s.databaseUrl
  prePing := true
  pool :=
    if s.isFileDatabase then none
    else some
      { size := max 1 s.poolSize, maxOverflow := max 0 s.maxOverflow, timeout := 30
        recycle := 1800
        statementTimeout :=
          if 0 < s.statementTimeoutMs then some s.statementTimeoutMs else none }

/-! ### Feature table -/

/-- The table in the file that the settings name, given what the file holds if it is there, or else
the built-in one. -/
def featureTable (s : Settings) (contents : Option String) : Except Failure FeatureTable :=
  match s.featureTablePath.filter (· ≠ ""), contents with
  | none, _ => .ok .builtIn
  | some _, none => .error .fileNotFound
  | some _, some text => (FeatureTable.ofDocument text).outcome

/-! ### Log level -/

def infoLevel : Int := 20

def levels : List (String × Int) :=
  [("DEBUG", 10), ("INFO", infoLevel), ("WARNING", 30), ("WARN", 30), ("ERROR", 40),
    ("CRITICAL", 50), ("FATAL", 50), ("NOTSET", 0)]

def levelNumber (s : Settings) : Except Failure Int :=
  let name := String.ofList (s.logLevel.toList.flatMap Text.raised)
  match levels.lookup name with
  | some n => .ok n
  | none =>
    if name = "BASIC_FORMAT" then .error (.unknownLogLevel "%(levelname)s:%(name)s:%(message)s")
    else if name = "_STYLES" then .error .wrongType
    else .ok infoLevel

end Settings

end Entitlements
