import MetricRelay.Duration.Basic

/-!
# What can go wrong

`Error` is what an operation on the relay reports. It is scoped to one model, task or destination,
so that the others carry on. `CollectorError` and `DeliveryError` are the causes inside it.
-/

namespace MetricRelay

/-- The tables a name can be missing from. -/
inductive Kind where
  | task
  | model
  | destination
  deriving DecidableEq, Repr

def Kind.text : Kind → String
  | .task => "task"
  | .model => "model"
  | .destination => "destination"

/-- A failure of a collector's own configuration or observation. -/
inductive CollectorError where
  | missingField (key : String)
  | invalidField (key reason : String)
  | io (detail : String)
  | timeout (after : Duration)
  | other (text : String)
  deriving DecidableEq, Repr

def CollectorError.message : CollectorError → String
  | .missingField key => s!"missing required config field `{key}`"
  | .invalidField key reason => s!"invalid value for `{key}`: {reason}"
  | .io detail => s!"io error: {detail}"
  | .timeout after => "timed out after " ++ after.text
  | .other text => text

/-- A failure of one request to one destination. -/
inductive DeliveryError where
  /-- The payload is too large to be compressed. -/
  | tooLarge (size limit : Nat)
  | transport (detail : String)
  | status (code : Nat) (body : String)
  deriving DecidableEq, Repr

def DeliveryError.message : DeliveryError → String
  | .tooLarge size limit =>
    s!"snappy compress: snappy: input buffer (size = {size}) is larger than allowed (size = {limit})"
  | .transport detail => s!"transport: {detail}"
  | .status code body => s!"remote write got status code {code}, response body: {body}"

inductive Error where
  /-- A malformed destination, monitor or configuration file. -/
  | config (text : String)
  | notRegistered (kind : Kind) (name : String)
  | configInit (model : String) (cause : CollectorError)
  | gather (model : String) (cause : CollectorError)
  | delivery (destination : String) (cause : DeliveryError)
  deriving DecidableEq, Repr

namespace Error

def message : Error → String
  | .config text => s!"invalid configuration: {text}"
  | .notRegistered kind name => kind.text ++ s!" `{name}` is not registered"
  | .configInit model cause => s!"init config for model `{model}` failed: " ++ cause.message
  | .gather model cause => s!"gather for model `{model}` failed: " ++ cause.message
  | .delivery destination cause => s!"delivery to `{destination}` failed: " ++ cause.message

/-- Whether a name was looked up that is gone already. -/
def isNotRegistered : Error → Bool
  | .notRegistered .. => true
  | _ => false

end Error

end MetricRelay
