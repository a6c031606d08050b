/-
Settings from the environment.

A variable that is empty counts as unset.  What is unset has a default that
depends on the stage; in production some variables have to be set.
-/
import Interchain.Double
import Interchain.Asset.Module
import Interchain.Text.Blank

namespace Interchain

inductive Variable
  | stage
  | stateMachine
  | hostAddress
  | moduleAddress
  | databaseUri
  | brokerHost
  | brokerPort
  | brokerPassword
  | channelRoot
  | logLevel
deriving DecidableEq

def Variable.name : Variable → String
  | .stage => "NODE_ENV"
  | .stateMachine => "ASSETS_STATE_MACHINE"
  | .hostAddress => "ASSETS_HOST_ADDRESS"
  | .moduleAddress => "ASSETS_MODULE_ADDRESS"
  | .databaseUri => "MONGODB_URI"
  | .brokerHost => "REDIS_HOST"
  | .brokerPort => "REDIS_PORT"
  | .brokerPassword => "REDIS_PASSWORD"
  | .channelRoot => "EVENTS_CHANNEL_PREFIX"
  | .logLevel => "LOG_LEVEL"

abbrev Environment := List (String × String)

/-- The value of a variable that is set and not empty. -/
def Environment.get? (e : Environment) (v : Variable) : Option String :=
  (Table.get? v.name e).filter (fun t => t ≠ "")

structure PoolSettings where
  maxPoolSize : Nat
  minPoolSize : Nat
  maxIdleTimeMS : Nat
  serverSelectionTimeoutMS : Nat
deriving DecidableEq

/-- How to reach the message broker. -/
structure BrokerSettings where
  host : String
  tcpPort : Float
  password : Option String

structure Settings where
  stage : String
  assets : ModuleConfig
  databaseUri : String
  pool : PoolSettings
  broker : BrokerSettings
  channelRoot : String
  logLevel : String

namespace Settings

/-- The sign and the digits in front of a text, after blanks. -/
def leadingNumber (t : String) : Bool × List Char :=
  match t.toList.dropWhile Blank.isBlank with
  | '-' :: cs => (true, cs.takeWhile Char.isDigit)
  | '+' :: cs => (false, cs.takeWhile Char.isDigit)
  | cs => (false, cs.takeWhile Char.isDigit)

/-- The number in front of a text; without digits it is none. -/
def tcpPortOfText (t : String) : Float :=
  match leadingNumber t with
  | (_, []) => 0 / 0
  | (negative, ds) => Double.ofDecimal negative (Nat.ofDigitChars 10 ds 0) 0

def productionPool : PoolSettings := ⟨20, 2, 60000, 10000⟩

def standardPool : PoolSettings := ⟨5, 1, 30000, 5000⟩

def placeholderHost : String := "0x000000000000000000000000000000000000aaaa"

def placeholderModule : String := "0x000000000000000000000000000000000000a55e"

def production : String := "production"

def development : String := "development"

def test : String := "test"

def byStage {α : Type} (stage : String) (inProduction inTest otherwise : α) : α :=
  if stage = production then inProduction else if stage = test then inTest else otherwise

/-- The settings of an environment, complete or not. -/
def ofEnvironment (e : Environment) : Settings :=
  let stage := (e.get? .stage).getD development
  let get (v : Variable) (inProduction inTest otherwise : String) : String :=
    (e.get? v).getD (byStage stage inProduction inTest otherwise)
  { stage := stage
    assets :=
      { stateMachine := (e.get? .stateMachine).getD "POLKADOT-1000"
        hostAddress := get .hostAddress "" placeholderHost placeholderHost
        moduleAddress := get .moduleAddress "" placeholderModule placeholderModule }
    databaseUri := get .databaseUri "mongodb://mongodb:27017/ismp-assets"
      "mongodb://localhost:27018/ismp-assets-test" "mongodb://localhost:27017/ismp-assets"
    pool := byStage stage productionPool standardPool standardPool
    broker :=
      { host := get .brokerHost "redis" "localhost" "localhost"
        tcpPort := tcpPortOfText (get .brokerPort "6379" "6380" "6379")
        password := byStage stage (e.get? .brokerPassword) none none }
    channelRoot := (e.get? .channelRoot).getD "ismp-assets"
    logLevel := get .logLevel "info" "error" "debug" }

def isProduction (s : Settings) : Bool := s.stage == production

def isDevelopment (s : Settings) : Bool := s.stage == development

def isTest (s : Settings) : Bool := s.stage == test

def prettyPrint (s : Settings) : Bool := s.isDevelopment

/-- A text without a mark in front of it. -/
def dropMark? (mark t : String) : Option String :=
  if mark.toList.isPrefixOf t.toList then some (String.ofList (t.toList.drop mark.length)) else none

/-- A database address without its scheme. -/
def withoutScheme (uri : String) : String :=
  ((dropMark? "mongodb://" uri).or (dropMark? "mongodb+srv://" uri)).getD uri

/-- The host in a database address, without the credentials in front of it. -/
def databaseHost (s : Settings) : String :=
  let cs := (withoutScheme s.databaseUri).toList
  let host := ((cs.reverse.takeWhile (· ≠ '@')).reverse).takeWhile (· ≠ '/')
  if host.isEmpty then "localhost" else String.ofList host

/-- Variables that production may not leave unset. -/
def required : List Variable :=
  [.stateMachine, .hostAddress, .moduleAddress, .databaseUri, .brokerHost]

/-- Variables that are required and not set. -/
def missing (e : Environment) : List Variable := required.filter (fun v => (e.get? v).isNone)

/-- In production every required variable has to be set. -/
def validate (e : Environment) : Except Failure Unit :=
  let vs := missing e
  if (ofEnvironment e).isProduction ∧ vs ≠ [] then
    let names := String.intercalate ", " (vs.map Variable.name)
    .error (.raised s!"Missing required environment variables for production: {names}")
  else .ok ()

/-- The settings of an environment that is complete. -/
def load (e : Environment) : Except Failure Settings := do
  validate e
  return ofEnvironment e

/-- The settings of the test stage with nothing else set. -/
def testing : Settings := ofEnvironment [(Variable.stage.name, test)]

end Settings
end Interchain
