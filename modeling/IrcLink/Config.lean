import IrcLink.Text.Quoted

/-!
The configuration: which server, who to be there, what to join, and how the link to it is kept. A configuration is
accepted if every text in it can go out as the parameter it is meant to be.
-/

namespace IrcLink

/-- What keeping a link up needs to know. Times are in milliseconds. -/
structure LinkSettings where
  host : String
  port : Nat
  retryDelay : Nat := 30000
  connectTimeout : Nat := 5000
  eventCapacity : Nat := 64
  noDelay : Bool := true
  deriving Repr, DecidableEq

structure Server where
  host : String
  port : Nat := 6667
  deriving Repr, DecidableEq

structure Identity where
  /-- In order of preference. -/
  nicks : List String
  name : String := "rpbot"
  login : String := "rpbot"
  deriving Repr, DecidableEq

structure Channel where
  name : String
  key : Option String := none
  deriving Repr, DecidableEq

structure Tuning where
  bufferSize : Nat := 2048
  pollTimeout : Nat := 500
  retryDelay : Nat := 30000
  connectTimeout : Nat := 5000
  noDelay : Bool := true
  deriving Repr, DecidableEq

inductive LogFormat where
  | pretty
  | json
  | compact
  deriving Repr, DecidableEq

def LogFormat.name : LogFormat → String
  | pretty => "pretty"
  | json => "json"
  | compact => "compact"

structure Logging where
  level : String := "info"
  format : LogFormat := .pretty
  timestamps : Bool := true
  deriving Repr, DecidableEq

structure Config where
  server : Server
  identity : Identity
  channels : List Channel := []
  tuning : Tuning := {}
  logging : Logging := {}
  deriving Repr, DecidableEq

namespace Config

inductive Invalid where
  | emptyHost
  | noNicks
  | notAWord (setting value : String)
  | holdsControls (setting value : String)
  | zeroBuffer
  deriving Repr, DecidableEq

def Invalid.message : Invalid → String
  | emptyHost => "server.host must not be empty"
  | noNicks => "identity.nicks must contain at least one nickname"
  | notAWord setting value =>
    setting ++ " must be a single word without control characters: " ++ Quoted.quote value
  | holdsControls setting value => setting ++ " must not contain control characters: " ++ Quoted.quote value
  | zeroBuffer => "engine.buffer_size must be greater than zero"

/-- Fit to be one parameter among others. -/
def isWord (s : String) : Bool :=
  s ≠ "" && s.toList.all fun c => !(CharClass.isWhiteSpace c || CharClass.isControl c)

def isText (s : String) : Bool := s.toList.all fun c => !CharClass.isControl c

def requireWord (setting value : String) : Except Invalid Unit :=
  if isWord value then .ok () else .error (.notAWord setting value)

def requireText (setting value : String) : Except Invalid Unit :=
  if isText value then .ok () else .error (.holdsControls setting value)

def requireChannel (c : Channel) : Except Invalid Unit := do
  requireWord "channels.name" c.name
  c.key.forM (requireWord "channels.key")

def validate (c : Config) : Except Invalid Unit := do
  if c.server.host.toList.all CharClass.isWhiteSpace then throw .emptyHost
  if c.identity.nicks = [] then throw .noNicks
  c.identity.nicks.forM (requireWord "identity.nicks")
  requireWord "identity.login" c.identity.login
  requireText "identity.name" c.identity.name
  c.channels.forM requireChannel
  if c.tuning.bufferSize = 0 then throw .zeroBuffer

def linkSettings (c : Config) : LinkSettings where
  host := c.server.host
  port := c.server.port
  retryDelay := c.tuning.retryDelay
  connectTimeout := c.tuning.connectTimeout
  noDelay := c.tuning.noDelay

def sample : String := "\n".intercalate [
  "# IRC bot configuration",
  "",
  "[server]",
  "# Host name or address of the IRC server",
  "host = \"irc.libera.chat\"",
  "port = 6667",
  "",
  "[identity]",
  "# Nicknames to try in order; \"_\" is appended once the list is exhausted",
  "nicks = [\"rpbot\", \"rpbot_\"]",
  "# Real name sent with USER",
  "name = \"rpbot\"",
  "login = \"rpbot\"",
  "",
  "# Channels joined after registration completes",
  "# [[channels]]",
  "# name = \"#rpbot\"",
  "# key = \"secret\"",
  "",
  "[engine]",
  "# Size of each of the read and write ring buffers, in bytes",
  "buffer_size = 2048",
  "# Upper bound on a single wait for socket readiness",
  "poll_timeout_ms = 500",
  "# Delay before reconnecting after a failure or disconnect",
  "retry_delay_ms = 30000",
  "# Time allowed for each resolved address to finish connecting",
  "connect_timeout_ms = 5000",
  "tcp_nodelay = true",
  "",
  "[logging]",
  "# Log level: \"error\", \"warn\", \"info\", \"debug\", \"trace\"",
  "# Can be overridden with RUST_LOG environment variable",
  "level = \"info\"",
  "# Log format: \"pretty\" (human-readable), \"json\", or \"compact\"",
  "format = \"pretty\"",
  "# Include timestamps",
  "timestamps = true",
  ""]

end Config

end IrcLink
