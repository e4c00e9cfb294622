import DoubleEntry.Audit
import DoubleEntry.Environment
import DoubleEntry.Relay.Worker
import DoubleEntry.Text.Number

/-!
# Settings

The settings of the service are read from the variables of its environment. Blanks around a value
do not count, and an empty value is none.

## Main definitions

* `Config`: the settings. `Config.ofEnvironment`: those of an environment.
* `ConfigError`: why an environment is refused.
-/

namespace DoubleEntry

/-- The settings for calls to the accounts service. -/
structure AccountsConfig where
  baseUrl : Option String
  token : Option String
  /-- Milliseconds to wait for an answer. -/
  timeout : Nat
deriving DecidableEq

/-- The settings for the publishing of events. -/
structure EventsConfig where
  publishUrl : Option String
  secret : Option String
  auditTopic : String
deriving DecidableEq

/-- The settings of the service. -/
structure Config where
  environment : String
  serviceName : String
  /-- The number under which the service listens. -/
  listenOn : Nat
  store : String
  readStore : Option String
  accounts : AccountsConfig
  relay : RelayConfig
  events : EventsConfig
deriving DecidableEq

/-- Why an environment is refused. -/
inductive ConfigError where
  | noStore
  | badNumber (key raw : String) (fault : NumberFault)
deriving DecidableEq

namespace ConfigError

/-- The wording of a refusal. -/
def message : ConfigError → String
  | noStore => "DB_WRITE_DSN or DATABASE_URL is required"
  | badNumber key raw _ => key ++ " has an invalid value: " ++ quote raw

/-- The wording of what is behind a refusal. -/
def cause? : ConfigError → Option String
  | noStore => none
  | badNumber _ _ fault => some fault.message

end ConfigError

namespace Config

/-- The value of a variable, if there is one. -/
def value? (env : Environment) (key : String) : Option String :=
  ((env key).map trim).filter fun v => !v.isEmpty

/-- The number that a variable spells, below a bound; where it has no value, the standard one. -/
def number (env : Environment) (key : String) (bound standard : Nat) : Except ConfigError Nat :=
  match value? env key with
  | none => .ok standard
  | some raw => (numberBelow bound raw).mapError (.badNumber key raw)

/-- Nanoseconds of a millisecond. -/
def milli : Nat := 1000000

/-- Nanoseconds of a second. -/
def second : Nat := 1000000000

/-- The settings of an environment. -/
def ofEnvironment (env : Environment) : Except ConfigError Config :=
  match (value? env "DB_WRITE_DSN").or (value? env "DATABASE_URL") with
  | none => .error .noStore
  | some store => do
    let listenOn ← number env "PORT" (twoPow 16) 8082
    let timeout ← number env "ACCOUNTS_TIMEOUT_MS" (twoPow 64) 3000
    let batchSize ← number env "OUTBOX_BATCH_SIZE" (twoPow 32) 50
    let poll ← number env "OUTBOX_POLL_INTERVAL_MS" (twoPow 64) 200
    let ttl ← number env "OUTBOX_CLAIM_TTL_SECS" (twoPow 64) 120
    return {
      environment := (value? env "APP_ENV").getD "dev"
      serviceName := (value? env "SERVICE_NAME").getD "ledger-payments"
      listenOn := listenOn
      store := store
      readStore := value? env "DB_READ_DSN"
      accounts := ⟨value? env "ACCOUNTS_BASE_URL", value? env "ACCOUNTS_INTERNAL_TOKEN", timeout⟩
      relay := ⟨batchSize, poll * milli, ttl * second,
        ((value? env "WORKER_ID").or (value? env "HOSTNAME")).getD "unknown"⟩
      events := ⟨value? env "EVENTS_PUBLISH_URL", value? env "EVENTS_SIGNING_SECRET",
        (value? env "AUDIT_TOPIC").getD AuditRecord.topic⟩ }

/-- The settings as a JSON value. -/
def toJson (c : Config) : Json := .obj [
  ("app_env", .str c.environment),
  ("service_name", .str c.serviceName),
  ("port", .nat c.listenOn),
  ("write_dsn", .str c.store),
  ("read_dsn", Json.option Json.str c.readStore),
  ("accounts", .obj [
    ("base_url", Json.option Json.str c.accounts.baseUrl),
    ("internal_token", Json.option Json.str c.accounts.token),
    ("timeout_ms", .nat c.accounts.timeout)]),
  ("outbox", .obj [
    ("batch_size", .nat c.relay.batchSize),
    ("poll_interval_ms", .nat (c.relay.pollInterval / milli)),
    ("claim_ttl_secs", .nat (c.relay.claimTtl / second))]),
  ("events", .obj [
    ("publish_url", Json.option Json.str c.events.publishUrl),
    ("signing_secret", Json.option Json.str c.events.secret),
    ("audit_topic", .str c.events.auditTopic)]),
  ("worker_id", .str c.relay.workerId)]

end Config

end DoubleEntry
