import Psych.Http.Connection

/-!
# Requests

The options `httpPsychQuery` sets on the easy handle of a connection.
-/

namespace Psych

/-- `QUERY_HTTP_KEEPALIVE` and `QUERY_IF_MODIFIED_SINCE`. -/
structure QueryFlags where
  httpKeepalive : Bool
  ifModifiedSince : Bool
deriving DecidableEq

/-- The flags of a timer query. -/
def timerFlags : QueryFlags := { httpKeepalive := true, ifModifiedSince := true }

/-- The options of a request; `none` where the option is not set. -/
structure Request where
  url : Text
  maxfilesize : Int
  freshConnect : Bool
  connectTimeoutMs : Option Int
  timeoutMs : Option Int
  dnsCacheTimeout : Option Int
  /-- `CURLOPT_TIMEVALUE`, sent as `If-Modified-Since`. -/
  timeValue : Option Int
  acceptEncoding : Option Text
  proxy : Option Text
deriving DecidableEq

/-- A setting that is used only where it is not empty. -/
def optional (setting : Text) : Option Text := if setting.isEmpty then none else some setting

def makeRequest (config : Config) (flags : QueryFlags) (connection : Connection) : Request where
  url := connection.url
  maxfilesize := atol config.maximumResponseSize
  freshConnect := !flags.httpKeepalive
  connectTimeoutMs := (optional config.connectTimeoutMs).map atol
  timeoutMs := (optional config.timeoutMs).map atol
  dnsCacheTimeout := (optional config.dnsCacheTimeout).map atol
  timeValue := if flags.ifModifiedSince then some connection.lastFiletime else none
  acceptEncoding := optional config.requestHttpEncoding
  proxy := optional config.httpProxy

end Psych
