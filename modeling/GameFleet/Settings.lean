import GameFleet.Resource.Template
import GameFleet.Text.Blank

/-!
# Settings of the control plane

`Settings.ofVars` takes the settings from named variables. A variable that is not set
leaves its setting at the default, and blanks around a number are skipped. The first
variable that is wrong decides what is reported.

`Callbacks` says where game servers report to, and is part of the settings.
-/

namespace GameFleet

/-! ## Callbacks -/

/-- Where game servers report their players and their health. -/
structure Callbacks where
  url : String
  /-- The code that a report has to carry. -/
  code : String
  deriving DecidableEq, Repr

namespace Callbacks

def standard : Callbacks := ⟨"http://aks-gaming-apiserver", ""⟩

instance : Inhabited Callbacks := ⟨standard⟩

/-- A text without the slashes at its end. -/
def withoutSlashes (s : String) : String :=
  String.ofList (s.toList.reverse.dropWhile fun c => c == '/').reverse

/-- Where a report goes. -/
def endpoint (c : Callbacks) (report : String) : String :=
  withoutSlashes c.url ++ "/" ++ report ++ "?code=" ++ c.code

def playersUrl (c : Callbacks) : String := c.endpoint "setactiveplayers"

def statusUrl (c : Callbacks) : String := c.endpoint "setserverstatus"

end Callbacks

/-! ## Numbers -/

/-- Why a text is no number. -/
inductive NumberError where
  | empty
  | invalidDigit
  | tooLarge
  deriving DecidableEq, Repr

def NumberError.message : NumberError → String
  | .empty => "cannot parse integer from empty string"
  | .invalidDigit => "invalid digit found in string"
  | .tooLarge => "number too large to fit in target type"

/-- Reads on in a number of which `n` was read. The first digit that is none or that
makes the number reach `bound` ends it. -/
def readDigitsBelow (bound : Nat) : Nat → List Char → Except NumberError Nat
  | n, [] => .ok n
  | n, c :: cs =>
    if !c.isDigit then .error .invalidDigit
    else
      let n := n * 10 + (c.toNat - '0'.toNat)
      if bound ≤ n then .error .tooLarge else readDigitsBelow bound n cs

/-- The number below `bound` that a text writes, a plus before it allowed. -/
def readNumber (bound : Nat) (cs : List Char) : Except NumberError Nat :=
  match cs with
  | [] => .error .empty
  | ['+'] => .error .invalidDigit
  | '+' :: cs => readDigitsBelow bound 0 cs
  | cs => readDigitsBelow bound 0 cs

/-! ## Settings -/

/-- Why settings are refused. -/
inductive SettingsError where
  /-- The number in a variable cannot be read. -/
  | badNumber (variableName text : String) (cause : NumberError)
  | portRange (low high : Nat)
  deriving DecidableEq, Repr

def SettingsError.message : SettingsError → String
  | .badNumber variableName text cause =>
    "invalid value for " ++ variableName ++ ": '" ++ text ++ "': " ++ cause.message
  | .portRange low high => "invalid port range " ++ toString low ++ "-" ++ toString high

structure Settings where
  ns : String
  lowestPort : Port
  highestPort : Port
  /-- How many workers each controller has. -/
  gameServerWorkers : Nat
  collectionWorkers : Nat
  autoscalerWorkers : Nat
  callbacks : Callbacks
  logLevel : String
  /-- The file with the objects to create at the start. -/
  seedManifest : Option String
  /-- How long, in seconds, controllers may take to stop. -/
  shutdownTimeout : Nat
  deriving DecidableEq, Repr

namespace Settings

/-- The lowest host port that is handed out, if nothing else is said. -/
def standardLowestPort : Nat := 20000

/-- The highest host port that is handed out, if nothing else is said. -/
def standardHighestPort : Nat := 30000

/-- The number below `bound` in a variable. -/
def number (get : String → Option String) (bound : Nat) (variableName : String)
    (standard : Nat) : Except SettingsError Nat :=
  match get variableName with
  | none => .ok standard
  | some text =>
    match readNumber bound (Text.trim text.toList) with
    | .ok n => .ok n
    | .error cause => .error (.badNumber variableName text cause)

/-- The settings that variables state. -/
def ofVars (get : String → Option String) : Except SettingsError Settings := do
  let low ← number get UInt16.size "DGS_MIN_PORT" standardLowestPort
  let high ← number get UInt16.size "DGS_MAX_PORT" standardHighestPort
  if low = 0 ∨ high < low then throw (.portRange low high)
  let gameServerWorkers ← number get UInt64.size "DGS_GAMESERVER_WORKERS" 1
  let collectionWorkers ← number get UInt64.size "DGS_COLLECTION_WORKERS" 1
  let autoscalerWorkers ← number get UInt64.size "DGS_AUTOSCALER_WORKERS" 1
  let shutdownTimeout ← number get UInt64.size "DGS_SHUTDOWN_TIMEOUT_SECS" 10
  return {
    ns := (get "DGS_NAMESPACE").getD "default"
    lowestPort := UInt16.ofNat low
    highestPort := UInt16.ofNat high
    gameServerWorkers, collectionWorkers, autoscalerWorkers
    callbacks := {
      url := (get "DGS_API_SERVER_URL").getD Callbacks.standard.url
      code := (get "DGS_ACCESS_CODE").getD Callbacks.standard.code }
    logLevel := (get "DGS_LOG_LEVEL").getD "info"
    seedManifest := get "DGS_SEED_MANIFEST"
    shutdownTimeout }

end Settings

end GameFleet
