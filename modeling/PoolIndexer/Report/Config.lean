import PoolIndexer.Config.Check
import PoolIndexer.Report.Basic

/-!
# Report.Config — an accepted or refused configuration as JSON
-/

namespace PoolIndexer

open Report

instance : ToJson ConfigError where
  toJson
    | .unreadable => error "Io"
    | .malformed => error "Toml"
    | .invalid settings =>
      .record [("error", .text "Validation"), ("fields", ToJson.toJson settings)]
    | .brokenRule message => errorWith "Configuration" message

namespace Config

/-- A configuration and the spans of time that follow from it. -/
def report (c : Config) : Json :=
  .record [("config", c.toJson),
    ("window_nanos", .ofOption .int64 c.aggregates.windowNanos.toOption),
    ("poll_ms", .nat c.chain.pollMs),
    ("request_timeout_ms", .nat (1000 * c.chain.requestTimeoutSecs))]

end Config

end PoolIndexer
